import Evm.Proofs.Machine.Simulation
import Evm.Proofs.State.Open

/-!
# Worlds over the same store

Clean layers may forget, so two worlds with the same writes pending over the same store need not
remember the same of it. They answer alike nonetheless (`World.Twins`), as long as their clean
layers mirror the store. The layers do so (`World.Mirrors`) but for the slots of incarnations that
are over: a flush moves such slots to the clean layer and leaves them out of the store. These slots
are never looked at again, because incarnations are raised too seldom to come round (`Budget`), and
the incarnation of an account, pending or not, is one that it has been raised to (`World.Orderly`).
-/

namespace Evm

/-! ## Ages of incarnations -/

namespace Store

/-- The incarnation of an account that the store holds. -/
def incarnation (s : Store) (a : Address) : UInt64 :=
  (Table.incarnations.stored s a).toOption.join.getD 0

/-- How often the incarnation that the store holds has to be raised to come to another one. -/
def age (s : Store) (a : Address) (n : UInt64) : Nat := (n - s.incarnation a).toNat

variable {s : Store} {a : Address} {n : UInt64}

lemma incarnation_of_stored {flushed? : Option UInt64}
    (h : Table.incarnations.stored s a = .ok flushed?) : s.incarnation a = flushed?.getD 0 := by
  rw [incarnation, h]
  cases flushed? <;> rfl

lemma age_incarnation (s : Store) (a : Address) : s.age a (s.incarnation a) = 0 := by
  rw [age, UInt64.sub_self, UInt64.toNat_zero]

/-- Raising an incarnation makes it older, unless it comes round. -/
lemma age_succ (h : s.age a n + 1 < 2 ^ 64) : s.age a (n + 1) = s.age a n + 1 := by
  have hsub : n + 1 - s.incarnation a = n - s.incarnation a + 1 := by
    rw [UInt64.sub_eq_add_neg, UInt64.sub_eq_add_neg, UInt64.add_assoc, UInt64.add_comm 1,
      ← UInt64.add_assoc]
  rw [age, hsub, UInt64.toNat_add, UInt64.toNat_one]
  exact Nat.mod_eq_of_lt h

end Store

/-- How often the incarnation of each account may be raised, so that none comes round. -/
structure Budget where
  /-- How often it may have been raised since the last flush. -/
  used : Address → Nat
  /-- How often it may be raised since then at all. -/
  left : Address → Nat
  used_le : ∀ a, used a ≤ left a
  left_lt : ∀ a, left a < 2 ^ 64

/-- The same budget for all accounts. -/
def Budget.evenly (used left : Nat) (hused : used ≤ left) (hleft : left < 2 ^ 64) : Budget :=
  ⟨fun _ => used, fun _ => left, fun _ => hused, fun _ => hleft⟩

/-! ## Clean layers -/

namespace CleanLayer

variable {κ ν ε : Type} [Ord κ] [Std.TransOrd κ] {stored : κ → Except ε (Option ν)}
  {l l' : CleanLayer κ ν} {key : κ}

/-- What the layer says about the key, the store holds. -/
def Mirrors (stored : κ → Except ε (Option ν)) (l : CleanLayer κ ν) (key : κ) : Prop :=
  ∀ e, l.peek? key = some e → stored key = .ok e

lemma Mirrors.refreshed (h : l.Mirrors stored key) (hl : l.Refreshed stored l') :
    l'.Mirrors stored key := by
  intro e he
  rcases hl.entry he with he | hs
  · exact h e he
  · exact hs

/-- An empty layer says nothing. -/
lemma mirrors_empty (kind : CleanKind) : (empty kind : CleanLayer κ ν).Mirrors stored key := by
  cases kind with
  | ordered =>
    intro e he
    change (∅ : Std.ExtTreeMap κ (Option ν))[key]? = some e at he
    rw [Std.ExtTreeMap.getElem?_empty] at he
    cases he
  | recent capacity => exact fun e he => by cases he

end CleanLayer

namespace Table

variable {κ ν : Type} [Ord κ] [Std.TransOrd κ] {t : Table κ ν} {w : World} {key : κ}

/-- What a read of a key gives with no clean layer between the pending writes and the store. -/
def readThrough (t : Table κ ν) (w : World) (key : κ) : Except StateError (Option ν) :=
  (t.cache w).dirty[key]?.elim (t.stored w.store key) .ok

lemma readClean_of_mirrors (h : (t.cache w).clean.Mirrors (t.stored w.store) key) :
    t.readClean w key = t.stored w.store key := by
  unfold readClean
  cases he : (t.cache w).clean.peek? key with
  | none => rfl
  | some e => exact (h e he).symm

lemma read_of_mirrors (h : (t.cache w).clean.Mirrors (t.stored w.store) key) :
    t.read w key = t.readThrough w key := by
  rw [read, readThrough, readClean_of_mirrors h]

lemma readThrough_congr {w' : World} (hstore : w.store = w'.store)
    (hdirty : (t.cache w).dirty = (t.cache w').dirty) (key : κ) :
    t.readThrough w key = t.readThrough w' key := by
  rw [readThrough, readThrough, hstore, hdirty]

end Table

namespace Cache

variable {κ ν : Type} [Ord κ] [Std.TransOrd κ] {c c' : Cache κ ν}

/-- What is pending, and what each open checkpoint would bring back. -/
def versions (c : Cache κ ν) : List (Std.ExtTreeMap κ (Option ν)) := c.dirty :: c.saved

/-- The two caches have the same pending, and so at each open checkpoint. -/
structure SameWrites (c c' : Cache κ ν) : Prop where
  dirty : c.dirty = c'.dirty
  diffs : c.diffs = c'.diffs

lemma SameWrites.versions (h : c.SameWrites c') : c.versions = c'.versions := by
  rw [Cache.versions, Cache.versions, saved, saved, h.dirty, h.diffs]

lemma SameWrites.refreshed {ε : Type} {stored stored' : κ → Except ε (Option ν)}
    {c₁ c₁' : Cache κ ν} (h : c.SameWrites c') (hc : c.Refreshed stored c₁)
    (hc' : c'.Refreshed stored' c₁') : c₁.SameWrites c₁' :=
  ⟨by rw [hc.dirty, hc'.dirty, h.dirty], by rw [hc.diffs, hc'.diffs, h.diffs]⟩

lemma SameWrites.write (h : c.SameWrites c') (key : κ) (value : Option ν) :
    (c.write key value).SameWrites (c'.write key value) := by
  obtain ⟨clean, dirty, diffs⟩ := c
  obtain ⟨clean', dirty', diffs'⟩ := c'
  obtain ⟨rfl, rfl⟩ := h
  cases diffs with
  | nil => exact ⟨rfl, rfl⟩
  | cons diff below => exact ⟨rfl, rfl⟩

lemma SameWrites.checkpoint (h : c.SameWrites c') : c.checkpoint.SameWrites c'.checkpoint :=
  ⟨h.dirty, congrArg (∅ :: ·) h.diffs⟩

/-- Both commit or neither does. -/
lemma SameWrites.commit (h : c.SameWrites c') : AlikeResult SameWrites c.commit c'.commit := by
  obtain ⟨clean, dirty, diffs⟩ := c
  obtain ⟨clean', dirty', diffs'⟩ := c'
  obtain ⟨rfl, rfl⟩ := h
  rcases diffs with _ | ⟨diff, _ | ⟨parent, below⟩⟩
  · exact .error _
  · exact .ok ⟨rfl, rfl⟩
  · exact .ok ⟨rfl, rfl⟩

/-- Both revert or neither does. -/
lemma SameWrites.revert (h : c.SameWrites c') : AlikeResult SameWrites c.revert c'.revert := by
  obtain ⟨clean, dirty, diffs⟩ := c
  obtain ⟨clean', dirty', diffs'⟩ := c'
  obtain ⟨rfl, rfl⟩ := h
  cases diffs with
  | nil => exact .error _
  | cons diff below => exact .ok ⟨rfl, rfl⟩

lemma clean_of_commit (h : c.commit = .ok c') : c'.clean = c.clean := by
  obtain ⟨clean, dirty, diffs⟩ := c
  rcases diffs with _ | ⟨diff, _ | ⟨parent, below⟩⟩ <;> cases h <;> rfl

lemma clean_of_revert (h : c.revert = .ok c') : c'.clean = c.clean := by
  obtain ⟨clean, dirty, diffs⟩ := c
  rcases diffs with _ | ⟨diff, below⟩ <;> cases h
  rfl

/-- Reverting drops the pending writes. -/
lemma versions_of_revert (h : c.revert = .ok c') : c.versions = c.dirty :: c'.versions := by
  obtain ⟨clean, dirty, diffs⟩ := c
  rcases diffs with _ | ⟨diff, below⟩ <;> cases h
  rfl

variable [Std.LawfulEqOrd κ] [DecidableEq κ]

/-- Committing drops the latest copy. -/
lemma versions_of_commit (h : c.commit = .ok c') :
    ∃ latest, c.versions = c.dirty :: latest :: c'.saved ∧ c'.dirty = c.dirty := by
  cases hsaved : c.saved with
  | nil =>
    rw [commit, diffs_of_saved_nil hsaved] at h
    cases h
  | cons latest below =>
    obtain ⟨c'', hrun, -, hdirty, hbelow⟩ := commit_of_saved hsaved
    obtain rfl : c'' = c' := Except.ok.inj (hrun.symm.trans h)
    exact ⟨latest, by rw [versions, hsaved, hbelow], hdirty⟩

lemma subset_versions_commit (h : c.commit = .ok c') : c'.versions ⊆ c.versions := by
  obtain ⟨latest, hversions, hdirty⟩ := versions_of_commit h
  rw [hversions, versions, hdirty]
  exact List.cons_subset_cons _ (List.subset_cons_self _ _)

omit [Std.LawfulEqOrd κ] [DecidableEq κ] in
lemma subset_versions_revert (h : c.revert = .ok c') : c'.versions ⊆ c.versions := by
  rw [versions_of_revert h]
  exact List.subset_cons_self _ _

omit [Std.LawfulEqOrd κ] [DecidableEq κ] in
lemma versions_checkpoint (c : Cache κ ν) : c.checkpoint.versions = c.dirty :: c.versions := by
  rw [versions, saved_checkpoint]
  rfl

omit [Std.LawfulEqOrd κ] [DecidableEq κ] in
lemma subset_versions_checkpoint (c : Cache κ ν) : c.checkpoint.versions ⊆ c.versions := by
  rw [versions_checkpoint]
  exact List.cons_subset.2 ⟨List.mem_cons_self, List.Subset.refl _⟩

/-- The entries of all versions are fit for their keys. -/
def AllVersions (P : κ → Option ν → Prop) (c : Cache κ ν) : Prop :=
  ∀ pending ∈ c.versions, ∀ key e, pending[key]? = some e → P key e

omit [Std.LawfulEqOrd κ] [DecidableEq κ] in
lemma AllVersions.subset {P : κ → Option ν → Prop} (h : c.AllVersions P)
    (hsub : c'.versions ⊆ c.versions) : c'.AllVersions P :=
  fun pending hmem => h pending (hsub hmem)

omit [Std.LawfulEqOrd κ] [DecidableEq κ] in
lemma AllVersions.mono {P Q : κ → Option ν → Prop} (h : c.AllVersions P)
    (hPQ : ∀ key e, P key e → Q key e) : c.AllVersions Q :=
  fun pending hmem key e he => hPQ key e (h pending hmem key e he)

lemma versions_write (c : Cache κ ν) (key : κ) (value : Option ν) :
    (c.write key value).versions = c.dirty.insert key value :: c.saved := by
  rw [versions, dirty_write, saved_write]

lemma AllVersions.write {P : κ → Option ν → Prop} (h : c.AllVersions P) {key : κ}
    {value : Option ν} (hvalue : P key value) : (c.write key value).AllVersions P := by
  intro pending hmem other e he
  rw [versions_write] at hmem
  rcases List.mem_cons.1 hmem with rfl | hmem
  · rw [Std.ExtTreeMap.getElem?_insert] at he
    split at he
    · rename_i heq
      obtain rfl : key = other := Std.LawfulEqOrd.eq_of_compare heq
      exact Option.some.inj he ▸ hvalue
    · exact h c.dirty List.mem_cons_self other e he
  · exact h pending (List.mem_cons_of_mem _ hmem) other e he

end Cache

/-! ## Worlds -/

namespace World

/-- The clean layers mirror the store, but for the slots of incarnations that are over. -/
structure Mirrors (budget : Budget) (w : World) : Prop where
  accounts : ∀ a, w.accounts.clean.Mirrors (Table.accounts.stored w.store) a
  storage : ∀ key : SlotKey, w.store.age key.address key.incarnation ≤ budget.left key.address →
    w.storage.clean.Mirrors (Table.storage.stored w.store) key
  code : ∀ hash, w.code.clean.Mirrors (Table.code.stored w.store) hash
  incarnations : ∀ a, w.incarnations.clean.Mirrors (Table.incarnations.stored w.store) a

/-- A pending incarnation is there, takes the place of one that can be read, and is within the
budget. -/
def FitIncarnation (budget : Budget) (s : Store) (a : Address) (e : Option UInt64) : Prop :=
  ∃ n flushed?, e = some n ∧ Table.incarnations.stored s a = .ok flushed? ∧ s.age a n ≤ budget.used a

/-- Pending code is there, under its hash. -/
def FitCode (hash : Hash) (e : Option Code) : Prop := ∃ code, e = some code ∧ code.hash = hash

/-- The incarnation of an account, where some are pending. -/
def incarnationIn (s : Store) (pending : Std.ExtTreeMap Address (Option UInt64)) (a : Address) :
    UInt64 :=
  pending[a]?.elim (s.incarnation a) (·.getD 0)

/-- No slot is pending in an incarnation that its account has not come to. -/
def InTime (s : Store) (pending : Std.ExtTreeMap SlotKey (Option Word) ×
    Std.ExtTreeMap Address (Option UInt64)) : Prop :=
  ∀ (key : SlotKey) (e : Option Word), pending.1[key]? = some e → s.age key.address key.incarnation ≤
    s.age key.address (incarnationIn s pending.2 key.address)

/-- The slots and incarnations that are pending, and what each open checkpoint would bring back of
both. -/
def versions (w : World) : List (Std.ExtTreeMap SlotKey (Option Word) ×
    Std.ExtTreeMap Address (Option UInt64)) :=
  w.storage.versions.zip w.incarnations.versions

/-- The store does not fail, and whatever is pending or can come back is fit to be written to it. -/
structure Orderly (budget : Budget) (w : World) : Prop where
  faultless : w.store.faults = {}
  incarnations : w.incarnations.AllVersions (FitIncarnation budget w.store)
  code : w.code.AllVersions FitCode
  slots : ∀ pending ∈ w.versions, InTime w.store pending

/-- The two worlds have the same store and the same writes, in good order, and clean layers that
mirror the store. -/
structure Twins (budget : Budget) (w w' : World) : Prop where
  store : w.store = w'.store
  accounts : w.accounts.SameWrites w'.accounts
  storage : w.storage.SameWrites w'.storage
  code : w.code.SameWrites w'.code
  incarnations : w.incarnations.SameWrites w'.incarnations
  orderly : w.Orderly budget
  mirrors : w.Mirrors budget
  mirrors' : w'.Mirrors budget

variable {budget budget' : Budget} {w w' w₁ w₁' : World} {a : Address}

lemma Mirrors.mono (h : w.Mirrors budget) (hleft : ∀ a, budget'.left a ≤ budget.left a) :
    w.Mirrors budget' :=
  ⟨h.accounts, fun key hkey => h.storage key (hkey.trans (hleft _)), h.code, h.incarnations⟩

lemma Orderly.mono (h : w.Orderly budget) (hused : ∀ a, budget.used a ≤ budget'.used a) :
    w.Orderly budget' :=
  ⟨h.faultless, h.incarnations.mono fun a _ ⟨n, flushed?, he, hs, hn⟩ =>
    ⟨n, flushed?, he, hs, hn.trans (hused a)⟩, h.code, h.slots⟩

/-- More may have been used, and less may be left. -/
lemma Twins.mono (h : Twins budget w w') (hused : ∀ a, budget.used a ≤ budget'.used a)
    (hleft : ∀ a, budget'.left a ≤ budget.left a) : Twins budget' w w' where
  store := h.store
  accounts := h.accounts
  storage := h.storage
  code := h.code
  incarnations := h.incarnations
  orderly := h.orderly.mono hused
  mirrors := h.mirrors.mono hleft
  mirrors' := h.mirrors'.mono hleft

/-! ### What does not matter -/

lemma Mirrors.refreshed (h : w.Mirrors budget) (hw : w.Refreshed w₁) : w₁.Mirrors budget where
  accounts a := hw.store ▸ (h.accounts a).refreshed hw.accounts.clean
  storage key hkey :=
    hw.store ▸ (h.storage key (hw.store ▸ hkey)).refreshed hw.storage.clean
  code hash := hw.store ▸ (h.code hash).refreshed hw.code.clean
  incarnations a := hw.store ▸ (h.incarnations a).refreshed hw.incarnations.clean

lemma Mirrors.of_clean (h : w.Mirrors budget) (hstore : w₁.store = w.store)
    (ha : w₁.accounts.clean = w.accounts.clean) (hs : w₁.storage.clean = w.storage.clean)
    (hc : w₁.code.clean = w.code.clean) (hi : w₁.incarnations.clean = w.incarnations.clean) :
    w₁.Mirrors budget where
  accounts := by rw [hstore, ha]; exact h.accounts
  storage := by rw [hstore, hs]; exact h.storage
  code := by rw [hstore, hc]; exact h.code
  incarnations := by rw [hstore, hi]; exact h.incarnations

lemma Orderly.of_subset (h : w.Orderly budget) (hstore : w₁.store = w.store)
    (hc : w₁.code.versions ⊆ w.code.versions)
    (hi : w₁.incarnations.versions ⊆ w.incarnations.versions)
    (hv : w₁.versions ⊆ w.versions) : w₁.Orderly budget where
  faultless := by rw [hstore]; exact h.faultless
  incarnations := by rw [hstore]; exact h.incarnations.subset hi
  code := h.code.subset hc
  slots pending hmem := by rw [hstore]; exact h.slots pending (hv hmem)

lemma Orderly.refreshed (h : w.Orderly budget) (hw : w.Refreshed w₁) : w₁.Orderly budget := by
  have hc : w₁.code.versions = w.code.versions := by
    rw [Cache.versions, Cache.versions, Cache.saved, Cache.saved, hw.code.dirty, hw.code.diffs]
  have hi : w₁.incarnations.versions = w.incarnations.versions := by
    rw [Cache.versions, Cache.versions, Cache.saved, Cache.saved, hw.incarnations.dirty,
      hw.incarnations.diffs]
  have hs : w₁.storage.versions = w.storage.versions := by
    rw [Cache.versions, Cache.versions, Cache.saved, Cache.saved, hw.storage.dirty,
      hw.storage.diffs]
  refine h.of_subset hw.store ?_ ?_ ?_
  · rw [hc]
    exact List.Subset.refl _
  · rw [hi]
    exact List.Subset.refl _
  · rw [World.versions, World.versions, hs, hi]
    exact List.Subset.refl _

namespace Twins

/-- What the clean layers remember may change on either side. -/
lemma refreshed (h : Twins budget w w') (hw : w.Refreshed w₁) (hw' : w'.Refreshed w₁') :
    Twins budget w₁ w₁' where
  store := by rw [hw.store, hw'.store, h.store]
  accounts := Cache.SameWrites.refreshed h.accounts hw.accounts hw'.accounts
  storage := Cache.SameWrites.refreshed h.storage hw.storage hw'.storage
  code := Cache.SameWrites.refreshed h.code hw.code hw'.code
  incarnations := Cache.SameWrites.refreshed h.incarnations hw.incarnations hw'.incarnations
  orderly := h.orderly.refreshed hw
  mirrors := h.mirrors.refreshed hw
  mirrors' := h.mirrors'.refreshed hw'

end Twins

/-! ### Reads -/

lemma Mirrors.readIncarnation (hm : w.Mirrors budget) {n : UInt64}
    (h : w.readIncarnation a = .ok n) : n = incarnationIn w.store w.incarnations.dirty a := by
  rw [World.readIncarnation, Table.read_of_mirrors (hm.incarnations a), Table.readThrough] at h
  rw [incarnationIn]
  cases hd : (Table.incarnations.cache w).dirty[a]? with
  | some e =>
    rw [hd] at h
    rw [show w.incarnations.dirty[a]? = some e from hd]
    exact (Except.ok.inj h).symm
  | none =>
    rw [hd, Option.elim_none] at h
    cases hs : Table.incarnations.stored w.store a with
    | error e =>
      rw [hs] at h
      cases h
    | ok flushed? =>
      rw [hs] at h
      rw [show w.incarnations.dirty[a]? = none from hd, Option.elim_none,
        Store.incarnation_of_stored hs]
      exact (Except.ok.inj h).symm

/-- Current incarnations are within the budget. -/
lemma Orderly.age_incarnationIn (ho : w.Orderly budget) {pending}
    (hmem : pending ∈ w.incarnations.versions) (a : Address) : w.store.age a (incarnationIn w.store pending a) ≤ budget.used a := by
  unfold incarnationIn
  cases hd : pending[a]? with
  | some e =>
    obtain ⟨m, -, rfl, -, hage⟩ := ho.incarnations pending hmem a e hd
    exact hage
  | none =>
    rw [Option.elim_none, Store.age_incarnation]
    exact Nat.zero_le _

/-- An incarnation that is read is within the budget. -/
lemma Orderly.age_le (ho : w.Orderly budget) (hm : w.Mirrors budget) {n : UInt64}
    (h : w.readIncarnation a = .ok n) : w.store.age a n ≤ budget.used a := by
  rw [hm.readIncarnation h]
  exact ho.age_incarnationIn List.mem_cons_self a

/-- So is the incarnation as of the last flush. -/
lemma Mirrors.age_clean (hm : w.Mirrors budget) {flushed? : Option UInt64}
    (h : Table.incarnations.readClean w a = .ok flushed?) : w.store.age a (flushed?.getD 0) = 0 := by
  rw [Table.readClean_of_mirrors (hm.incarnations a)] at h
  rw [← Store.incarnation_of_stored h, Store.age_incarnation]

namespace Twins

variable (h : Twins budget w w')

include h

lemma readAccount (a : Address) : w.readAccount a = w'.readAccount a := by
  rw [World.readAccount, World.readAccount, Table.read_of_mirrors (h.mirrors.accounts a),
    Table.read_of_mirrors (h.mirrors'.accounts a)]
  exact Table.readThrough_congr h.store h.accounts.dirty a

lemma readIncarnation (a : Address) : w.readIncarnation a = w'.readIncarnation a := by
  rw [World.readIncarnation, World.readIncarnation,
    Table.read_of_mirrors (h.mirrors.incarnations a),
    Table.read_of_mirrors (h.mirrors'.incarnations a)]
  exact congrArg _ (Table.readThrough_congr h.store h.incarnations.dirty a)

lemma readCleanIncarnation (a : Address) :
    Table.incarnations.readClean w a = Table.incarnations.readClean w' a := by
  rw [Table.readClean_of_mirrors (h.mirrors.incarnations a),
    Table.readClean_of_mirrors (h.mirrors'.incarnations a), h.store]

lemma readSlot (a : Address) (index : Word) : w.readSlot a index = w'.readSlot a index := by
  rw [World.readSlot, World.readSlot, ← h.readIncarnation a]
  cases hi : w.readIncarnation a with
  | error e => rfl
  | ok n =>
    have hage := (h.orderly.age_le h.mirrors hi).trans (budget.used_le a)
    change (Table.storage.read w ⟨a, n, index⟩).map (·.getD 0) =
      (Table.storage.read w' ⟨a, n, index⟩).map (·.getD 0)
    rw [Table.read_of_mirrors (h.mirrors.storage ⟨a, n, index⟩ hage),
      Table.read_of_mirrors (h.mirrors'.storage ⟨a, n, index⟩ (h.store ▸ hage))]
    exact congrArg _ (Table.readThrough_congr h.store h.storage.dirty _)

lemma readFlushedSlot (a : Address) (index : Word) :
    w.readFlushedSlot a index = w'.readFlushedSlot a index := by
  rw [World.readFlushedSlot, World.readFlushedSlot, ← h.readIncarnation a,
    ← h.readCleanIncarnation a]
  cases hi : w.readIncarnation a with
  | error e => rfl
  | ok current =>
    cases hf : Table.incarnations.readClean w a with
    | error e => rfl
    | ok flushed? =>
      have hage := (h.mirrors.age_clean hf).trans_le (Nat.zero_le (budget.left a))
      have hslot : Table.storage.readClean w ⟨a, flushed?.getD 0, index⟩ =
          Table.storage.readClean w' ⟨a, flushed?.getD 0, index⟩ := by
        rw [Table.readClean_of_mirrors (h.mirrors.storage ⟨a, flushed?.getD 0, index⟩ hage),
          Table.readClean_of_mirrors (h.mirrors'.storage ⟨a, flushed?.getD 0, index⟩ (h.store ▸ hage)), h.store]
      change (if current = flushed?.getD 0 then _ else _) = if current = flushed?.getD 0 then _ else _
      rw [hslot]

lemma readCode (hash : Hash) : w.readCode hash = w'.readCode hash := by
  rw [World.readCode, World.readCode, Table.read_of_mirrors (h.mirrors.code hash),
    Table.read_of_mirrors (h.mirrors'.code hash),
    Table.readThrough_congr (t := Table.code) h.store h.code.dirty hash]

end Twins

/-- What only reads does alike in twins, if it gives the same. -/
lemma alike_of_run {α : Type} {op : WorldM α} {r : World → Except StateError α}
    (hrun : ∀ w, ∃ w', op.run w = (r w, w') ∧ w.Refreshed w')
    (hr : ∀ w w', Twins budget w w' → r w = r w') : Program.Alike (Twins budget) op op := by
  intro w w' h
  obtain ⟨w₁, hw, hw₁⟩ := hrun w
  obtain ⟨w₁', hw', hw₁'⟩ := hrun w'
  rw [hw, hw']
  exact ⟨hr w w' h, h.refreshed hw₁ hw₁'⟩

lemma alike_account (a : Address) : Program.Alike (Twins budget) (account a) (account a) :=
  alike_of_run (account_run · a) fun _ _ h => h.readAccount a

lemma alike_incarnation (a : Address) :
    Program.Alike (Twins budget) (incarnation a) (incarnation a) :=
  alike_of_run (incarnation_run · a) fun _ _ h => h.readIncarnation a

lemma alike_slot (a : Address) (index : Word) :
    Program.Alike (Twins budget) (slot a index) (slot a index) :=
  alike_of_run (slot_run · a index) fun _ _ h => h.readSlot a index

lemma alike_flushedSlot (a : Address) (index : Word) :
    Program.Alike (Twins budget) (flushedSlot a index) (flushedSlot a index) :=
  alike_of_run (flushedSlot_run · a index) fun _ _ h => h.readFlushedSlot a index

lemma alike_codeOfHash (hash : Hash) :
    Program.Alike (Twins budget) (codeOfHash hash) (codeOfHash hash) :=
  alike_of_run (codeOfHash_run · hash) fun _ _ h => h.readCode hash

/-! ### Writes -/

/-- A slot is written in time if its account has come to that incarnation. -/
lemma InTime.writeSlot {s : Store} {slots : Std.ExtTreeMap SlotKey (Option Word)}
    {incarnations : Std.ExtTreeMap Address (Option UInt64)} (h : InTime s (slots, incarnations))
    {key : SlotKey} {value? : Option Word} (hkey : s.age key.address key.incarnation ≤
      s.age key.address (incarnationIn s incarnations key.address)) :
    InTime s (slots.insert key value?, incarnations) := by
  unfold InTime
  intro other e he
  rw [Std.ExtTreeMap.getElem?_insert] at he
  split at he
  · rename_i heq
    obtain rfl : key = other := Std.LawfulEqOrd.eq_of_compare heq
    exact hkey
  · exact h other e he

lemma incarnationIn_insert (s : Store) (incarnations : Std.ExtTreeMap Address (Option UInt64))
    (a b : Address) (n : UInt64) :
    incarnationIn s (incarnations.insert a (some n)) b =
      if b = a then n else incarnationIn s incarnations b := by
  rw [incarnationIn, Std.ExtTreeMap.getElem?_insert]
  by_cases hb : b = a
  · subst hb
    rw [if_pos Std.ReflOrd.compare_self, if_pos rfl]
    rfl
  · rw [if_neg fun heq => hb (Std.LawfulEqOrd.eq_of_compare heq).symm, if_neg hb]
    rfl

/-- Slots stay in time when the account comes to an older incarnation. -/
lemma InTime.raise {s : Store} {slots : Std.ExtTreeMap SlotKey (Option Word)}
    {incarnations : Std.ExtTreeMap Address (Option UInt64)} (h : InTime s (slots, incarnations))
    {n : UInt64} (hn : s.age a (incarnationIn s incarnations a) ≤ s.age a n) :
    InTime s (slots, incarnations.insert a (some n)) := by
  intro key e he
  refine (h key e he).trans ?_
  dsimp only
  rw [incarnationIn_insert]
  split
  · rename_i heq
    rw [heq]
    exact hn
  · exact le_rfl

namespace Twins

/-- A write of an account record. -/
lemma writeAccount (h : Twins budget w w') (a : Address) (record? : Option Account) :
    Twins budget { w with accounts := w.accounts.write a record? }
      { w' with accounts := w'.accounts.write a record? } where
  store := h.store
  accounts := h.accounts.write a record?
  storage := h.storage
  code := h.code
  incarnations := h.incarnations
  orderly := h.orderly.of_subset rfl (List.Subset.refl _) (List.Subset.refl _) (List.Subset.refl _)
  mirrors := h.mirrors.of_clean rfl (Cache.clean_write _ _ _) rfl rfl rfl
  mirrors' := h.mirrors'.of_clean rfl (Cache.clean_write _ _ _) rfl rfl rfl

/-- A write of a slot of the current incarnation. -/
lemma writeSlot (h : Twins budget w w') (key : SlotKey)
    (hkey : key.incarnation = incarnationIn w.store w.incarnations.dirty key.address)
    (value? : Option Word) :
    Twins budget { w with storage := w.storage.write key value? }
      { w' with storage := w'.storage.write key value? } where
  store := h.store
  accounts := h.accounts
  storage := h.storage.write key value?
  code := h.code
  incarnations := h.incarnations
  orderly := by
    refine ⟨h.orderly.faultless, h.orderly.incarnations, h.orderly.code, fun pending hmem => ?_⟩
    rw [World.versions, Cache.versions_write, Cache.versions, List.zip_cons_cons] at hmem
    rcases List.mem_cons.1 hmem with rfl | hmem
    · exact (h.orderly.slots _ List.mem_cons_self).writeSlot (by rw [hkey])
    · exact h.orderly.slots pending (List.mem_cons_of_mem _ hmem)
  mirrors := h.mirrors.of_clean rfl rfl (Cache.clean_write _ _ _) rfl rfl
  mirrors' := h.mirrors'.of_clean rfl rfl (Cache.clean_write _ _ _) rfl rfl

lemma writeCode (h : Twins budget w w') (code : Code) :
    Twins budget { w with code := w.code.write code.hash (some code) }
      { w' with code := w'.code.write code.hash (some code) } where
  store := h.store
  accounts := h.accounts
  storage := h.storage
  code := h.code.write code.hash (some code)
  incarnations := h.incarnations
  orderly := ⟨h.orderly.faultless, h.orderly.incarnations, h.orderly.code.write ⟨code, rfl, rfl⟩,
    h.orderly.slots⟩
  mirrors := h.mirrors.of_clean rfl rfl rfl (Cache.clean_write _ _ _) rfl
  mirrors' := h.mirrors'.of_clean rfl rfl rfl (Cache.clean_write _ _ _) rfl

/-- A write of an incarnation that is fit to be written and older than the current one. -/
lemma writeIncarnation (h : Twins budget w w') {n : UInt64}
    (hfit : FitIncarnation budget w.store a (some n))
    (hage : w.store.age a (incarnationIn w.store w.incarnations.dirty a) ≤ w.store.age a n) :
    Twins budget { w with incarnations := w.incarnations.write a (some n) }
      { w' with incarnations := w'.incarnations.write a (some n) } where
  store := h.store
  accounts := h.accounts
  storage := h.storage
  code := h.code
  incarnations := h.incarnations.write a (some n)
  orderly := by
    refine ⟨h.orderly.faultless, h.orderly.incarnations.write hfit, h.orderly.code,
      fun pending hmem => ?_⟩
    rw [World.versions, Cache.versions_write, Cache.versions, List.zip_cons_cons] at hmem
    rcases List.mem_cons.1 hmem with rfl | hmem
    · exact (h.orderly.slots _ List.mem_cons_self).raise hage
    · exact h.orderly.slots pending (List.mem_cons_of_mem _ hmem)
  mirrors := h.mirrors.of_clean rfl rfl rfl rfl (Cache.clean_write _ _ _)
  mirrors' := h.mirrors'.of_clean rfl rfl rfl rfl (Cache.clean_write _ _ _)

/-- What comes after a look at the incarnation of an account may depend on it. -/
lemma after_incarnation {α : Type} (h : Twins budget w w') {q : UInt64 → WorldM α}
    (hq : ∀ n w₁ w₁', w.readIncarnation a = .ok n → w.Refreshed w₁ → Twins budget w₁ w₁' →
      ((q n).run w₁).1 = ((q n).run w₁').1 ∧ Twins budget ((q n).run w₁).2 ((q n).run w₁').2) :
    ((incarnation a >>= q).run w).1 = ((incarnation a >>= q).run w').1 ∧
      Twins budget ((incarnation a >>= q).run w).2 ((incarnation a >>= q).run w').2 := by
  obtain ⟨w₁, hrun, hw₁⟩ := incarnation_run w a
  obtain ⟨w₁', hrun', hw₁'⟩ := incarnation_run w' a
  have h₁ := h.refreshed hw₁ hw₁'
  rw [← h.readIncarnation a] at hrun'
  cases hi : w.readIncarnation a with
  | error e =>
    rw [hi] at hrun hrun'
    rw [Program.run_bind_error hrun, Program.run_bind_error hrun']
    exact ⟨rfl, h₁⟩
  | ok n =>
    rw [hi] at hrun hrun'
    rw [Program.run_bind_ok hrun, Program.run_bind_ok hrun']
    exact hq n w₁ w₁' hi hw₁ h₁

end Twins

lemma alike_putAccount (a : Address) (record : Account) :
    Program.Alike (Twins budget) (putAccount a record) (putAccount a record) :=
  fun _ _ h => ⟨rfl, h.writeAccount a (some record)⟩

lemma alike_putCode (code : Code) : Program.Alike (Twins budget) (putCode code) (putCode code) :=
  .ite (fun _ _ h => ⟨rfl, h.writeCode code⟩) (.pure _)

lemma alike_setSlot (a : Address) (index value : Word) :
    Program.Alike (Twins budget) (setSlot a index value) (setSlot a index value) := by
  intro w w' h
  refine h.after_incarnation fun n w₁ w₁' hn hw₁ h₁ => ?_
  have hkey : n = incarnationIn w₁.store w₁.incarnations.dirty a := by
    rw [hw₁.store, hw₁.incarnations.dirty]
    exact h.mirrors.readIncarnation hn
  dsimp only
  split
  · exact ⟨rfl, h₁.writeSlot ⟨a, n, index⟩ hkey none⟩
  · exact ⟨rfl, h₁.writeSlot ⟨a, n, index⟩ hkey (some value)⟩

/-! ### Deletions -/

/-- What an incarnation that is read takes the place of can be read. -/
lemma Orderly.exists_flushed (ho : w.Orderly budget) (hm : w.Mirrors budget) {n : UInt64}
    (h : w.readIncarnation a = .ok n) :
    ∃ flushed?, Table.incarnations.stored w.store a = .ok flushed? := by
  rw [World.readIncarnation, Table.read_of_mirrors (hm.incarnations a), Table.readThrough] at h
  cases hd : (Table.incarnations.cache w).dirty[a]? with
  | some e =>
    obtain ⟨-, flushed?, -, hstored, -⟩ := ho.incarnations _ List.mem_cons_self a e hd
    exact ⟨flushed?, hstored⟩
  | none =>
    rw [hd, Option.elim_none] at h
    cases hs : Table.incarnations.stored w.store a with
    | error e =>
      rw [hs] at h
      cases h
    | ok flushed? => exact ⟨flushed?, rfl⟩

/-- The budget allows that the incarnation of the account is raised once more. -/
def HasRoom (budget : Budget) (w : World) (a : Address) : Prop :=
  ∀ n, w.readIncarnation a = .ok n → w.store.age a n < budget.used a

/-- Raising an incarnation that was read is alike in twins if the budget allows it. -/
lemma Twins.raise (h : Twins budget w w') (hroom : w.HasRoom budget a) {n : UInt64}
    (hn : w.readIncarnation a = .ok n) (hw : w.Continues w₁)
    (hdirty : w₁.incarnations.dirty = w.incarnations.dirty) (h₁ : Twins budget w₁ w₁') :
    Twins budget { w₁ with incarnations := w₁.incarnations.write a (some (n + 1)) }
      { w₁' with incarnations := w₁'.incarnations.write a (some (n + 1)) } := by
  have hlt : w.store.age a n < budget.used a := hroom n hn
  have hsucc : w.store.age a (n + 1) = w.store.age a n + 1 :=
    Store.age_succ ((Nat.succ_le_of_lt hlt).trans_lt
      ((budget.used_le a).trans_lt (budget.left_lt a)))
  obtain ⟨flushed?, hflushed⟩ := h.orderly.exists_flushed h.mirrors hn
  refine h₁.writeIncarnation ⟨n + 1, flushed?, rfl, ?_, ?_⟩ ?_
  · rw [hw.store, hflushed]
  · rw [hw.store, hsucc]
    exact hlt
  · rw [hw.store, hdirty, ← h.mirrors.readIncarnation hn, hsucc]
    exact Nat.le_succ _

lemma Twins.deleteAccount (h : Twins budget w w') (hroom : w.HasRoom budget a) :
    ((deleteAccount a).run w).1 = ((deleteAccount a).run w').1 ∧
      Twins budget ((deleteAccount a).run w).2 ((deleteAccount a).run w').2 :=
  h.after_incarnation fun _ _ _ hn hw h₁ =>
    ⟨rfl, h.raise hroom hn
      (hw.continues.trans (Table.steady_accounts.continues (.write _ a none)))
      hw.incarnations.dirty (h₁.writeAccount a none)⟩

lemma Twins.clearStorage (h : Twins budget w w') (hroom : w.HasRoom budget a) :
    ((clearStorage a).run w).1 = ((clearStorage a).run w').1 ∧
      Twins budget ((clearStorage a).run w).2 ((clearStorage a).run w').2 :=
  h.after_incarnation fun _ _ _ hn hw h₁ =>
    ⟨rfl, h.raise hroom hn hw.continues hw.incarnations.dirty h₁⟩

/-! ### Checkpoints -/

lemma subset_versions_checkpoint (w : World) : w.checkpoint.versions ⊆ w.versions := by
  have hzip : w.checkpoint.versions = (w.storage.dirty, w.incarnations.dirty) :: w.versions := by
    have hs : w.checkpoint.storage.versions = _ := Cache.versions_checkpoint w.storage
    have hi : w.checkpoint.incarnations.versions = _ := Cache.versions_checkpoint w.incarnations
    rw [versions, hs, hi]
    rfl
  rw [hzip]
  exact List.cons_subset.2 ⟨List.mem_cons_self, List.Subset.refl _⟩

/-- Committing drops the latest copies. -/
lemma subset_versions_commit {storage : Cache SlotKey Word} {incarnations : Cache Address UInt64}
    (hs : w.storage.commit = .ok storage) (hi : w.incarnations.commit = .ok incarnations)
    (hs₁ : w₁.storage = storage) (hi₁ : w₁.incarnations = incarnations) :
    w₁.versions ⊆ w.versions := by
  obtain ⟨slots, hs', hsd⟩ := Cache.versions_of_commit hs
  obtain ⟨latest, hi', hid⟩ := Cache.versions_of_commit hi
  rw [versions, versions, hs', hi', hs₁, hi₁, Cache.versions, Cache.versions, hsd, hid]
  exact List.cons_subset_cons _ (List.subset_cons_self _ _)

/-- Reverting drops what was pending. -/
lemma subset_versions_revert {storage : Cache SlotKey Word} {incarnations : Cache Address UInt64}
    (hs : w.storage.revert = .ok storage) (hi : w.incarnations.revert = .ok incarnations)
    (hs₁ : w₁.storage = storage) (hi₁ : w₁.incarnations = incarnations) :
    w₁.versions ⊆ w.versions := by
  rw [versions, versions, Cache.versions_of_revert hs, Cache.versions_of_revert hi, hs₁, hi₁]
  exact List.subset_cons_self _ _

lemma Twins.checkpoint (h : Twins budget w w') : Twins budget w.checkpoint w'.checkpoint where
  store := h.store
  accounts := h.accounts.checkpoint
  storage := h.storage.checkpoint
  code := h.code.checkpoint
  incarnations := h.incarnations.checkpoint
  orderly := h.orderly.of_subset rfl (Cache.subset_versions_checkpoint _)
    (Cache.subset_versions_checkpoint _) (subset_versions_checkpoint _)
  mirrors := h.mirrors.of_clean rfl rfl rfl rfl rfl
  mirrors' := h.mirrors'.of_clean rfl rfl rfl rfl rfl

end World

/-- Operations that succeed together are alike if what comes after them is. -/
lemma AlikeResult.bind {σ τ σ' τ' ε : Type} {R : σ → τ → Prop} {R' : σ' → τ' → Prop}
    {r : Except ε σ} {r' : Except ε τ} {q : σ → Except ε σ'} {q' : τ → Except ε τ'}
    (h : AlikeResult R r r')
    (hq : ∀ s t, r = .ok s → r' = .ok t → R s t → AlikeResult R' (q s) (q' t)) :
    AlikeResult R' (r >>= q) (r' >>= q') := by
  cases h with
  | error e => exact .error e
  | ok h => exact hq _ _ rfl rfl h

namespace World

variable {budget : Budget} {w w' : World}

lemma Twins.commit (h : Twins budget w w') : AlikeResult (Twins budget) w.commit w'.commit := by
  refine h.accounts.commit.bind fun accounts accounts' ha ha' haccounts => ?_
  refine h.storage.commit.bind fun storage storage' hs hs' hstorage => ?_
  refine h.code.commit.bind fun code code' hc hc' hcode => ?_
  refine h.incarnations.commit.bind fun incarnations incarnations' hi hi' hincarnations => ?_
  refine .ok ⟨h.store, haccounts, hstorage, hcode, hincarnations, ?_, ?_, ?_⟩
  · exact h.orderly.of_subset rfl (Cache.subset_versions_commit hc)
      (Cache.subset_versions_commit hi) (subset_versions_commit hs hi rfl rfl)
  · exact h.mirrors.of_clean rfl (Cache.clean_of_commit ha) (Cache.clean_of_commit hs)
      (Cache.clean_of_commit hc) (Cache.clean_of_commit hi)
  · exact h.mirrors'.of_clean rfl (Cache.clean_of_commit ha') (Cache.clean_of_commit hs')
      (Cache.clean_of_commit hc') (Cache.clean_of_commit hi')

lemma Twins.revert (h : Twins budget w w') : AlikeResult (Twins budget) w.revert w'.revert := by
  refine h.accounts.revert.bind fun accounts accounts' ha ha' haccounts => ?_
  refine h.storage.revert.bind fun storage storage' hs hs' hstorage => ?_
  refine h.code.revert.bind fun code code' hc hc' hcode => ?_
  refine h.incarnations.revert.bind fun incarnations incarnations' hi hi' hincarnations => ?_
  refine .ok ⟨h.store, haccounts, hstorage, hcode, hincarnations, ?_, ?_, ?_⟩
  · exact h.orderly.of_subset rfl (Cache.subset_versions_revert hc)
      (Cache.subset_versions_revert hi) (subset_versions_revert hs hi rfl rfl)
  · exact h.mirrors.of_clean rfl (Cache.clean_of_revert ha) (Cache.clean_of_revert hs)
      (Cache.clean_of_revert hc) (Cache.clean_of_revert hi)
  · exact h.mirrors'.of_clean rfl (Cache.clean_of_revert ha') (Cache.clean_of_revert hs')
      (Cache.clean_of_revert hc') (Cache.clean_of_revert hi')

/-- Twins answer alike to all that execution does, and stay twins. -/
theorem simulation_twins (budget : Budget) : Simulation (Twins budget) where
  account := alike_account
  codeOfHash := alike_codeOfHash
  slot := alike_slot
  flushedSlot := alike_flushedSlot
  setSlot := alike_setSlot
  putAccount := alike_putAccount
  putCode := alike_putCode
  checkpoint := Twins.checkpoint
  commit := Twins.commit
  revert := Twins.revert
  depth h := congrArg List.length h.accounts.diffs

end World

end Evm
