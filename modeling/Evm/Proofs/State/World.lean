import Evm.Proofs.State.Table

/-!
# What operations leave of the world

Between two flushes the store stands still, and the only thing that moves under the pending writes
is what the clean layers remember. A read changes nothing else (`World.Refreshed`). A write changes
the pending writes as well, but not what they come to when the open checkpoints are reverted
(`World.Continues`), so every sequence of reads and writes is a step of that kind.
-/

namespace Evm

/-! ## Caches -/

namespace Cache

variable {κ ν ε : Type} [Ord κ] [Std.TransOrd κ] {stored : κ → Except ε (Option ν)}
  {c c' c'' : Cache κ ν}

/-- The two caches hold the same at each of their open checkpoints, and the clean layer has changed
by forgetting and refetching only. -/
structure Continues (stored : κ → Except ε (Option ν)) (c c' : Cache κ ν) : Prop where
  saved : c'.saved = c.saved
  clean : c.clean.Refreshed stored c'.clean

/-- The two caches differ in what their clean layers remember of the store. -/
structure Refreshed (stored : κ → Except ε (Option ν)) (c c' : Cache κ ν) : Prop where
  dirty : c'.dirty = c.dirty
  diffs : c'.diffs = c.diffs
  clean : c.clean.Refreshed stored c'.clean

namespace Refreshed

lemma refl (c : Cache κ ν) : Refreshed stored c c := ⟨rfl, rfl, .refl _⟩

lemma trans (h : Refreshed stored c c') (h' : Refreshed stored c' c'') : Refreshed stored c c'' :=
  ⟨h'.dirty.trans h.dirty, h'.diffs.trans h.diffs, h.clean.trans h'.clean⟩

lemma continues (h : Refreshed stored c c') : Continues stored c c' :=
  ⟨by rw [saved, saved, h.dirty, h.diffs], h.clean⟩

end Refreshed

namespace Continues

lemma refl (c : Cache κ ν) : Continues stored c c := ⟨rfl, .refl _⟩

lemma trans (h : Continues stored c c') (h' : Continues stored c' c'') : Continues stored c c'' :=
  ⟨h'.saved.trans h.saved, h.clean.trans h'.clean⟩

lemma refresh {l : CleanLayer κ ν} (h : c.clean.Refreshed stored l) :
    Continues stored c { c with clean := l } :=
  ⟨rfl, h⟩

variable [Std.LawfulEqOrd κ] [DecidableEq κ]

lemma write (c : Cache κ ν) (key : κ) (value : Option ν) :
    Continues stored c (c.write key value) :=
  ⟨saved_write c key value, by rw [clean_write]; exact .refl _⟩

/-- Committing keeps what was written in the checkpoint. -/
lemma commit (h : Continues stored c.checkpoint c') :
    ∃ c'', c'.commit = .ok c'' ∧ Continues stored c c'' ∧ c''.dirty = c'.dirty := by
  obtain ⟨c'', hrun, hclean, hdirty, hsaved⟩ :=
    commit_of_saved (h.saved.trans (saved_checkpoint c))
  exact ⟨c'', hrun, ⟨hsaved, hclean ▸ h.clean⟩, hdirty⟩

omit [Std.LawfulEqOrd κ] [DecidableEq κ] in
/-- Reverting gives up what was written in the checkpoint. -/
lemma revert (h : Continues stored c.checkpoint c') :
    ∃ c'', c'.revert = .ok c'' ∧ Continues stored c c'' ∧ c''.dirty = c.dirty := by
  obtain ⟨c'', hrun, hclean, hdirty, hsaved⟩ :=
    revert_of_saved (h.saved.trans (saved_checkpoint c))
  exact ⟨c'', hrun, ⟨hsaved, hclean ▸ h.clean⟩, hdirty⟩

end Continues

end Cache

/-! ## Worlds -/

namespace World

/-- The two worlds differ in what their clean layers remember of the store. -/
structure Refreshed (w w' : World) : Prop where
  store : w'.store = w.store
  accounts : w.accounts.Refreshed (Table.accounts.stored w.store) w'.accounts
  storage : w.storage.Refreshed (Table.storage.stored w.store) w'.storage
  code : w.code.Refreshed (Table.code.stored w.store) w'.code
  incarnations : w.incarnations.Refreshed (Table.incarnations.stored w.store) w'.incarnations

/-- Nothing was flushed in between, and reverting the open checkpoints comes to the same. -/
structure Continues (w w' : World) : Prop where
  store : w'.store = w.store
  accounts : w.accounts.Continues (Table.accounts.stored w.store) w'.accounts
  storage : w.storage.Continues (Table.storage.stored w.store) w'.storage
  code : w.code.Continues (Table.code.stored w.store) w'.code
  incarnations : w.incarnations.Continues (Table.incarnations.stored w.store) w'.incarnations

/-- The two worlds have the same writes pending. -/
structure SamePending (w w' : World) : Prop where
  accounts : w'.accounts.dirty = w.accounts.dirty
  storage : w'.storage.dirty = w.storage.dirty
  code : w'.code.dirty = w.code.dirty
  incarnations : w'.incarnations.dirty = w.incarnations.dirty

/-- No incarnation has changed, and nothing was flushed in between. -/
structure SameIncarnations (w w' : World) : Prop where
  continues : w.Continues w'
  dirty : w'.incarnations.dirty = w.incarnations.dirty

/-- Nor was any slot written. -/
structure SameSlots (w w' : World) : Prop extends w.SameIncarnations w' where
  slots : w'.storage.dirty = w.storage.dirty

variable {w w' w'' : World}

namespace Refreshed

lemma refl (w : World) : w.Refreshed w := ⟨rfl, .refl _, .refl _, .refl _, .refl _⟩

lemma trans (h : w.Refreshed w') (h' : w'.Refreshed w'') : w.Refreshed w'' where
  store := h'.store.trans h.store
  accounts := h.accounts.trans (h.store ▸ h'.accounts)
  storage := h.storage.trans (h.store ▸ h'.storage)
  code := h.code.trans (h.store ▸ h'.code)
  incarnations := h.incarnations.trans (h.store ▸ h'.incarnations)

lemma continues (h : w.Refreshed w') : w.Continues w' :=
  ⟨h.store, h.accounts.continues, h.storage.continues, h.code.continues, h.incarnations.continues⟩

end Refreshed

namespace SamePending

lemma refl (w : World) : w.SamePending w := ⟨rfl, rfl, rfl, rfl⟩

lemma trans (h : w.SamePending w') (h' : w'.SamePending w'') : w.SamePending w'' :=
  ⟨h'.accounts.trans h.accounts, h'.storage.trans h.storage, h'.code.trans h.code,
    h'.incarnations.trans h.incarnations⟩

end SamePending

namespace Continues

lemma refl (w : World) : w.Continues w := ⟨rfl, .refl _, .refl _, .refl _, .refl _⟩

lemma trans (h : w.Continues w') (h' : w'.Continues w'') : w.Continues w'' where
  store := h'.store.trans h.store
  accounts := h.accounts.trans (h.store ▸ h'.accounts)
  storage := h.storage.trans (h.store ▸ h'.storage)
  code := h.code.trans (h.store ▸ h'.code)
  incarnations := h.incarnations.trans (h.store ▸ h'.incarnations)

end Continues

namespace SameIncarnations

lemma refl (w : World) : w.SameIncarnations w := ⟨.refl w, rfl⟩

lemma trans (h : w.SameIncarnations w') (h' : w'.SameIncarnations w'') : w.SameIncarnations w'' :=
  ⟨h.continues.trans h'.continues, h'.dirty.trans h.dirty⟩

end SameIncarnations

namespace SameSlots

lemma refl (w : World) : w.SameSlots w := ⟨.refl w, rfl⟩

lemma trans (h : w.SameSlots w') (h' : w'.SameSlots w'') : w.SameSlots w'' :=
  ⟨h.toSameIncarnations.trans h'.toSameIncarnations, h'.slots.trans h.slots⟩

lemma of_refreshed (h : w.Refreshed w') : w.SameSlots w' :=
  ⟨⟨h.continues, h.incarnations.dirty⟩, h.storage.dirty⟩

/-- Where the same is pending, no slot was written. -/
lemma of_same (h : w.Continues w') (hsame : w.SamePending w') : w.SameSlots w' :=
  ⟨⟨h, hsame.incarnations⟩, hsame.storage⟩

end SameSlots

end World

/-! ## Tables -/

namespace Table

variable {κ ν : Type} [Ord κ] [Std.TransOrd κ]

/-- A step of the cache of the table is a step of the world. -/
structure Steady (t : Table κ ν) : Prop extends t.Lawful where
  refreshed : ∀ {w c}, (t.cache w).Refreshed (t.stored w.store) c → w.Refreshed (t.setCache w c)
  continues : ∀ {w c}, (t.cache w).Continues (t.stored w.store) c → w.Continues (t.setCache w c)

lemma steady_accounts : accounts.Steady where
  toLawful := lawful_accounts
  refreshed h := ⟨rfl, h, .refl _, .refl _, .refl _⟩
  continues h := ⟨rfl, h, .refl _, .refl _, .refl _⟩

lemma steady_storage : storage.Steady where
  toLawful := lawful_storage
  refreshed h := ⟨rfl, .refl _, h, .refl _, .refl _⟩
  continues h := ⟨rfl, .refl _, h, .refl _, .refl _⟩

lemma steady_code : code.Steady where
  toLawful := lawful_code
  refreshed h := ⟨rfl, .refl _, .refl _, h, .refl _⟩
  continues h := ⟨rfl, .refl _, .refl _, h, .refl _⟩

lemma steady_incarnations : incarnations.Steady where
  toLawful := lawful_incarnations
  refreshed h := ⟨rfl, .refl _, .refl _, .refl _, h⟩
  continues h := ⟨rfl, .refl _, .refl _, .refl _, h⟩

variable {t : Table κ ν}

/-- Another clean layer makes another world, but not one that the pending writes tell apart. -/
lemma Steady.setClean (ht : t.Steady) {w : World} {l : CleanLayer κ ν}
    (hl : (t.cache w).clean.Refreshed (t.stored w.store) l) : w.Refreshed (t.setClean w l) :=
  ht.refreshed ⟨rfl, rfl, hl⟩

variable [Std.LawfulEqOrd κ] [DecidableEq κ] {w₀ : World}

lemma keeps_load (ht : t.Steady) (key : κ) : Keeps w₀.Continues (t.load key) := by
  intro w h
  obtain ⟨l, hrun, hl, -⟩ := load_run ht.toLawful w key
  rw [hrun]
  exact h.trans (ht.continues (.refresh hl))

lemma keeps_loadClean (ht : t.Steady) (key : κ) : Keeps w₀.Continues (t.loadClean key) := by
  intro w h
  obtain ⟨l, hrun, hl, -⟩ := loadClean_run ht.toLawful w key
  rw [hrun]
  exact h.trans (ht.continues (.refresh hl))

lemma keeps_put (ht : t.Steady) (key : κ) (value : ν) : Keeps w₀.Continues (t.put key value) :=
  fun _ h => h.trans (ht.continues (.write _ key (some value)))

lemma keeps_del (ht : t.Steady) (key : κ) : Keeps w₀.Continues (t.del key) :=
  fun _ h => h.trans (ht.continues (.write _ key none))

end Table

/-! ## Operations -/

namespace World

variable {w₀ : World}

lemma keeps_account (a : Address) : Keeps w₀.Continues (account a) :=
  Table.keeps_load Table.steady_accounts a

lemma keeps_accountOrEmpty (a : Address) : Keeps w₀.Continues (accountOrEmpty a) :=
  (keeps_account a).bind fun _ => .pure _

lemma keeps_exists? (a : Address) : Keeps w₀.Continues (exists? a) :=
  (keeps_account a).bind fun _ => .pure _

lemma keeps_putAccount (a : Address) (record : Account) :
    Keeps w₀.Continues (putAccount a record) :=
  Table.keeps_put Table.steady_accounts a record

lemma keeps_sameSlots_putAccount (a : Address) (record : Account) :
    Keeps w₀.SameSlots (putAccount a record) :=
  fun _ h => h.trans ⟨⟨Table.steady_accounts.continues (.write _ a (some record)), rfl⟩, rfl⟩

lemma keeps_incarnation (a : Address) : Keeps w₀.Continues (incarnation a) :=
  (Table.keeps_load Table.steady_incarnations a).bind fun _ => .pure _

lemma keeps_slot (a : Address) (index : Word) : Keeps w₀.Continues (slot a index) :=
  (keeps_incarnation a).bind fun _ =>
    (Table.keeps_load Table.steady_storage _).bind fun _ => .pure _

lemma keeps_flushedSlot (a : Address) (index : Word) : Keeps w₀.Continues (flushedSlot a index) :=
  (keeps_incarnation a).bind fun _ =>
    (Table.keeps_loadClean Table.steady_incarnations a).bind fun _ =>
      .ite ((Table.keeps_loadClean Table.steady_storage _).bind fun _ =>
        .pure _) (.pure _)

lemma keeps_setSlot (a : Address) (index value : Word) :
    Keeps w₀.Continues (setSlot a index value) :=
  (keeps_incarnation a).bind fun _ =>
    .ite (Table.keeps_del Table.steady_storage _) (Table.keeps_put Table.steady_storage _ _)

lemma keeps_codeOfHash (hash : Hash) : Keeps w₀.Continues (codeOfHash hash) :=
  .ite (.pure _)
    ((Table.keeps_load Table.steady_code hash).bind fun _ => .pure _)

lemma keeps_codeOf (a : Address) : Keeps w₀.Continues (codeOf a) := by
  refine (keeps_account a).bind fun record? => ?_
  cases record? with
  | none => exact .pure _
  | some record => exact keeps_codeOfHash record.codeHash

lemma keeps_putCode (code : Code) : Keeps w₀.Continues (putCode code) :=
  .ite (Table.keeps_put Table.steady_code _ _) (.pure _)

lemma keeps_sameSlots_putCode (code : Code) : Keeps w₀.SameSlots (putCode code) :=
  .ite (fun _ h => h.trans
    ⟨⟨Table.steady_code.continues (.write _ code.hash (some code)), rfl⟩, rfl⟩) (.pure _)

lemma keeps_deleteAccount (a : Address) : Keeps w₀.Continues (deleteAccount a) :=
  (keeps_incarnation a).bind fun _ => (Table.keeps_del Table.steady_accounts a).bind fun _ =>
    Table.keeps_put Table.steady_incarnations a _

/-! ## Checkpoints -/

variable {w w' : World}

/-- Committing keeps the writes of the checkpoint. -/
lemma Continues.commit (h : w.checkpoint.Continues w') :
    ∃ w'', w'.commit = .ok w'' ∧ w.Continues w'' ∧ w'.SamePending w'' := by
  obtain ⟨accounts, ha, hac, had⟩ := h.accounts.commit
  obtain ⟨storage, hs, hsc, hsd⟩ := h.storage.commit
  obtain ⟨code, hc, hcc, hcd⟩ := h.code.commit
  obtain ⟨incarnations, hi, hic, hid⟩ := h.incarnations.commit
  refine ⟨{ w' with accounts, storage, code, incarnations }, ?_, ⟨h.store, hac, hsc, hcc, hic⟩,
    ⟨had, hsd, hcd, hid⟩⟩
  unfold World.commit
  rw [ha, hs, hc, hi]
  rfl

/-- Reverting gives up the writes of the checkpoint. -/
lemma Continues.revert (h : w.checkpoint.Continues w') :
    ∃ w'', w'.revert = .ok w'' ∧ w.Continues w'' ∧ w.SamePending w'' := by
  obtain ⟨accounts, ha, hac, had⟩ := h.accounts.revert
  obtain ⟨storage, hs, hsc, hsd⟩ := h.storage.revert
  obtain ⟨code, hc, hcc, hcd⟩ := h.code.revert
  obtain ⟨incarnations, hi, hic, hid⟩ := h.incarnations.revert
  refine ⟨{ w' with accounts, storage, code, incarnations }, ?_, ⟨h.store, hac, hsc, hcc, hic⟩,
    ⟨had, hsd, hcd, hid⟩⟩
  unfold World.revert
  rw [ha, hs, hc, hi]
  rfl

end World

end Evm
