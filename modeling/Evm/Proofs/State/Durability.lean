import Evm.Proofs.State.Refinement

/-!
# What a flush makes last

After a flush the store alone answers all that the world answered before: a world opened over it gives
the same records, incarnations, slots and code, and nothing is left to write. The store has no more
than that either. It holds records only, each under a key of its own, and slots only of the
incarnation that it holds of their account (`Store.Tidy`): a slot that was written in another
incarnation has been left out, or goes with the incarnation when a later one comes to the store.
-/

namespace Evm

/-! ## Records of the store -/

/-- What the store keeps a record of. -/
inductive RecordId where
  | account (a : Address)
  | slot (key : SlotKey)
  | code (hash : Hash)
  | incarnation (a : Address)

namespace RecordId

/-- The key of the record in the store. -/
def key : RecordId → Key
  | account a => StoreKey.account a
  | slot key => StoreKey.slot key
  | code hash => StoreKey.code hash
  | incarnation a => StoreKey.incarnation a

/-- What the keys of all records of that kind begin with. -/
def tag : RecordId → UInt8
  | account _ => 0x61
  | slot _ => 0x73
  | code _ => 0x63
  | incarnation _ => 0x69

lemma head?_key (id : RecordId) : id.key.head? = some id.tag := by
  cases id <;> rfl

/-- Different records have different keys. -/
lemma key_injective : Function.Injective key := by
  intro x y h
  have htag : x.tag = y.tag := by
    have hhead := congrArg List.head? h
    rw [head?_key, head?_key] at hhead
    exact Option.some.inj hhead
  -- Records of different kinds differ in the first byte of their keys.
  cases x <;> cases y <;> simp [tag] at htag
  case account.account => exact congrArg account (StoreKey.account_injective h)
  case slot.slot => exact congrArg slot (StoreKey.slot_injective h)
  case code.code => exact congrArg code (StoreKey.code_injective h)
  case incarnation.incarnation => exact congrArg incarnation (StoreKey.incarnation_injective h)

/-- Removing the slots of an incarnation leaves the keys of all other records alone. -/
lemma misses_prune {a : Address} {n : UInt64} {id : RecordId}
    (h : ∀ index, id ≠ slot ⟨a, n, index⟩) : (BatchOp.prune a n).Misses id.key := by
  by_cases htag : id.tag = 0x73
  · cases id <;> simp [tag] at htag
    case slot k =>
      intro old
      rw [BatchOp.prune, BatchOp.update, key, if_neg]
      rw [StoreKey.storage_isPrefixOf_slot, Prod.mk.injEq]
      rintro ⟨rfl, rfl⟩
      exact h k.slot rfl
  · refine BatchOp.misses_of_head (BatchOp.head?_prune (a, n)) ?_
    rw [head?_key]
    exact fun heq => htag (Option.some.inj heq)

end RecordId

/-! ## Tidy stores -/

/-- The store holds nothing but records, and of the slots only those of the incarnation that it holds
of their account. -/
structure Store.Tidy (s : Store) : Prop where
  records : ∀ key ∈ s.entries, ∃ id : RecordId, id.key = key
  slots : ∀ key : SlotKey, StoreKey.slot key ∈ s.entries →
    key.incarnation = s.incarnation key.address

namespace Store

lemma tidy_empty : Tidy {} :=
  ⟨fun _ hkey => absurd hkey Std.ExtTreeMap.not_mem_empty,
    fun _ hkey => absurd hkey Std.ExtTreeMap.not_mem_empty⟩

/-- A batch brings only those keys to the store that it sets. -/
lemma mem_foldl_apply {s : Store} {ops : List BatchOp} {key : Key}
    (h : key ∈ (ops.foldl apply s).entries) :
    key ∈ s.entries ∨ ∃ value, BatchOp.put key value ∈ ops := by
  induction ops generalizing s with
  | nil => exact .inl h
  | cons op ops ih =>
    rcases ih h with hmem | ⟨value, hput⟩
    · rw [Std.ExtTreeMap.mem_iff_isSome_getElem?, getElem?_apply] at hmem
      rw [Std.ExtTreeMap.mem_iff_isSome_getElem?]
      cases op with
      | put other value =>
        by_cases heq : other = key
        · exact .inr ⟨value, heq ▸ List.mem_cons_self⟩
        · exact .inl (by rwa [BatchOp.misses_put value heq] at hmem)
      | del other =>
        refine .inl ?_
        rw [BatchOp.update] at hmem
        split at hmem
        · cases hmem
        · exact hmem
      | delPrefix start =>
        refine .inl ?_
        rw [BatchOp.update] at hmem
        split at hmem
        · cases hmem
        · exact hmem
    · exact .inr ⟨value, List.mem_cons_of_mem op hput⟩

end Store

/-- A flush sets records only. -/
lemma Pending.exists_id {p : Pending} {key : Key} {value : Bytes}
    (h : BatchOp.put key value ∈ p.ops) : ∃ id : RecordId, id.key = key := by
  simp only [ops, List.mem_append, List.mem_map, Prod.exists] at h
  rcases h with (((⟨hash, _, -, hput⟩ | ⟨a, _, -, hput⟩) | ⟨a, record?, -, hput⟩) |
    ⟨slot, value?, -, hput⟩) | ⟨_, _, -, hput⟩
  · exact ⟨.code hash, (BatchOp.put.inj hput).1⟩
  · exact ⟨.incarnation a, (BatchOp.put.inj hput).1⟩
  · cases record? with
    | none => cases hput
    | some record => exact ⟨.account a, (BatchOp.put.inj hput).1⟩
  · cases value? with
    | none => cases hput
    | some value => exact ⟨.slot slot, (BatchOp.put.inj hput).1⟩
  · cases hput

/-! ## What worlds retain -/

namespace World

variable {budget : Budget} {w : World}

/-- Where nothing is pending, a flush writes nothing. -/
lemma Settled.flush_run (h : w.Settled) (ho : w.Orderly budget) (hm : w.Mirrors budget)
    (hc : w.Closed) : ∃ w', World.flush.run w = (.ok {}, w') ∧ w'.store = w.store := by
  obtain ⟨pruned, l, hflushes, -, -, hpruned⟩ := World.flush_run ho hm hc
  have hnone : pruned = [] := by
    refine List.eq_nil_iff_forall_not_mem.2 fun e he => ?_
    obtain ⟨m, -, hd, -⟩ := (hpruned e.1 e.2).1 he
    rw [h.incarnations, Std.ExtTreeMap.getElem?_empty] at hd
    cases hd
  have hpending : w.pending pruned = ⟨[], [], [], [], []⟩ := by
    rw [pending, h.accounts, h.storage, h.code, h.incarnations, hnone]
    rfl
  have hrun := hflushes.flush
  rw [hpending] at hrun
  refine ⟨_, hrun, ?_⟩
  change (w.pending pruned).ops.foldl Store.apply w.store = w.store
  rw [hpending]
  rfl

/-- The second world answers everything that is asked of the current state as the first one does, and
both have an answer. -/
structure Retained (w w' : World) : Prop where
  account : ∀ a, ∃ record?, answer (account a) w = .ok record? ∧ answer (account a) w' = .ok record?
  incarnation : ∀ a, ∃ n, answer (incarnation a) w = .ok n ∧ answer (incarnation a) w' = .ok n
  slot : ∀ a index, ∃ value,
    answer (slot a index) w = .ok value ∧ answer (slot a index) w' = .ok value
  codeOfHash : ∀ hash, ∃ code,
    answer (codeOfHash hash) w = .ok code ∧ answer (codeOfHash hash) w' = .ok code
  codeOf : ∀ a, ∃ code, answer (codeOf a) w = .ok code ∧ answer (codeOf a) w' = .ok code

/-- What actions make of a world over an empty store. -/
def ofActions (kind : CleanKind) (actions : List Action) : World :=
  (actAll actions (ofStore {} kind)).2

end World

namespace Reference

open World (Action Request Reply)

section

variable {r : Reference} {w : World}

/-! ## Flushes -/

lemma Describes.closed (h : r.Describes w) (hsaved : r.saved = []) : w.Closed := by
  have hopen := h.open
  rw [hsaved] at hopen
  exact hopen.closed

/-- Without open checkpoints everything pending is written, and the world still is what the maps
are. -/
lemma Describes.flushes (h : r.Describes w) (hclosed : r.saved = []) :
    ∃ pruned l, w.Flushes (w.pending pruned) (w.after l pruned) ∧
      (∀ a n, (a, n) ∈ pruned ↔ w.Prunes a n) ∧
      Describes { r with flushed := r.current } (w.after l pruned) := by
  obtain ⟨pruned, l, hflushes, -, -, hpruned⟩ :=
    World.flush_run h.orderly h.mirrors (h.closed hclosed)
  have hnone : ¬r.Overflows (.request .flush) := Bool.false_ne_true
  obtain ⟨-, hdescribes⟩ := h.serve hnone
  have hrun : (World.serve .flush).run w =
      (.ok (.flushed (w.pending pruned).changes), w.after l pruned) :=
    Program.run_bind_ok hflushes.flush
  have hserve : (r.serve .flush).2 = { r with flushed := r.current } := by
    rw [Reference.serve, hclosed]
  rw [hrun, hserve] at hdescribes
  exact ⟨pruned, l, hflushes, hpruned, hdescribes⟩

/-- A slot that is in the store after a flush is of the current incarnation of its account. -/
lemma Describes.slot_after (h : r.Describes w) (htidy : w.store.Tidy)
    {pruned : List (Address × UInt64)} (hpruned : ∀ a n, (a, n) ∈ pruned ↔ w.Prunes a n)
    {key : SlotKey} (hkey : StoreKey.slot key ∈ (w.storeAfter pruned).entries) :
    key.incarnation = r.current.deletions key.address := by
  have hcurrent := h.incarnationIn key.address
  have hadd := Store.incarnation_add_age (h.age_le key.address)
  rw [Std.ExtTreeMap.mem_iff_isSome_getElem?, World.storeAfter, Store.getElem?_foldl_apply,
    World.update_slot] at hkey
  split at hkey
  · cases hkey
  rename_i hkept
  cases hover : World.isOver w.incarnations.dirty key with
  | true =>
    -- The slot was left out, so it was in the store before, and its incarnation is removed.
    rw [hover, if_pos rfl] at hkey
    have hold := htidy.slots key (Std.ExtTreeMap.mem_iff_isSome_getElem?.2 hkey)
    refine absurd ((hpruned _ _).2 ?_) hkept
    rw [World.isOver] at hover
    cases hd : w.incarnations.dirty[key.address]? with
    | none =>
      rw [hd] at hover
      cases hover
    | some n? =>
      obtain ⟨m, flushed?, rfl, hstored, -⟩ :=
        h.orderly.incarnations _ List.mem_cons_self key.address n? hd
      have hflushed := Store.incarnation_of_stored hstored
      rw [hd] at hover
      exact ⟨m, flushed?, hd, hstored, hflushed.symm.trans hold.symm, of_decide_eq_true hover⟩
  | false =>
    rw [hover, if_neg Bool.false_ne_true] at hkey
    have hbetween : (w.store.incarnation key.address).toNat ≤ key.incarnation.toNat ∧
        key.incarnation.toNat ≤ (r.current.deletions key.address).toNat := by
      cases hd : w.storage.dirty[key]? with
      | none =>
        rw [hd] at hkey
        rw [htidy.slots key (Std.ExtTreeMap.mem_iff_isSome_getElem?.2 hkey)]
        omega
      | some value? =>
        have hage := h.orderly.slots _ List.mem_cons_self key value? hd
        dsimp only at hage
        rw [hcurrent] at hage
        have hadd' := Store.incarnation_add_age (hage.trans (h.age_le key.address))
        omega
    refine UInt64.toNat_inj.1 (Nat.le_antisymm hbetween.2 ?_)
    rw [World.incarnationIn] at hcurrent
    rw [World.isOver] at hover
    cases hd : w.incarnations.dirty[key.address]? with
    | none =>
      rw [hd, Option.elim_none] at hcurrent
      exact hcurrent ▸ hbetween.1
    | some n? =>
      rw [hd, Option.elim_some] at hcurrent
      rw [hd, Option.any_some, hcurrent] at hover
      exact Nat.le_of_not_lt (of_decide_eq_false hover)

/-- A flush leaves the store tidy. -/
lemma Describes.tidy_after (h : r.Describes w) (htidy : w.store.Tidy)
    {pruned : List (Address × UInt64)} (hpruned : ∀ a n, (a, n) ∈ pruned ↔ w.Prunes a n) :
    (w.storeAfter pruned).Tidy where
  records key hkey := by
    rcases Store.mem_foldl_apply hkey with hold | ⟨value, hput⟩
    · exact htidy.records key hold
    · exact Pending.exists_id hput
  slots key hkey := by
    rw [h.slot_after htidy hpruned hkey, h.incarnation_after]

/-! ## Runs -/

/-- Only a flush changes the store. -/
lemma store_serve {request : Request} (hflush : request ≠ .flush) (w : World) :
    ((World.serve request).run w).2.store = w.store := by
  have hkept {α : Type} {op : WorldM α} {f : α → Reply} (hop : ∀ w₀ : World, Keeps w₀.Continues op) :
      ((do return f (← op) : WorldM Reply).run w).2.store = w.store :=
    ((hop w).bind (fun _ => .pure _) w (.refl w)).store
  have hclosing {close : World → Except CacheError World}
      (hclose : ∀ w₁, close w = .ok w₁ → w₁.store = w.store) :
      ((do World.closing close; return .done : WorldM Reply).run w).2.store = w.store := by
    rw [Program.run_bind, World.closing_run]
    cases hrun : close w with
    | error e => rfl
    | ok w₁ => exact hclose w₁ hrun
  cases request with
  | account a => exact hkept fun _ => World.keeps_account a
  | accountOrEmpty a => exact hkept fun _ => World.keeps_accountOrEmpty a
  | exists? a => exact hkept fun _ => World.keeps_exists? a
  | putAccount a record => exact hkept fun _ => World.keeps_putAccount a record
  | deleteAccount a => exact hkept fun _ => World.keeps_deleteAccount a
  | clearStorage a => exact hkept fun _ => World.keeps_clearStorage a
  | incarnation a => exact hkept fun _ => World.keeps_incarnation a
  | slot a index => exact hkept fun _ => World.keeps_slot a index
  | setSlot a index value => exact hkept fun _ => World.keeps_setSlot a index value
  | flushedSlot a index => exact hkept fun _ => World.keeps_flushedSlot a index
  | putCode code => exact hkept fun _ => World.keeps_putCode code
  | codeOfHash hash => exact hkept fun _ => World.keeps_codeOfHash hash
  | codeOf a => exact hkept fun _ => World.keeps_codeOf a
  | checkpoint => rfl
  | commit => exact hclosing fun _ => World.store_of_commit
  | revert => exact hclosing fun _ => World.store_of_revert
  | depth => rfl
  | flush => exact absurd rfl hflush

/-- Whatever is done with a world, its store stays tidy. -/
lemma Describes.tidy_act (h : r.Describes w) (htidy : w.store.Tidy) (action : Action) :
    (World.act action w).2.store.Tidy := by
  cases action with
  | reopen kind => exact htidy
  | request request =>
    by_cases hflush : request = .flush
    · subst hflush
      by_cases hclosed : r.saved = []
      · obtain ⟨pruned, l, hflushes, hpruned, -⟩ := h.flushes hclosed
        have hrun : (World.serve .flush).run w =
            (.ok (.flushed (w.pending pruned).changes), w.after l pruned) :=
          Program.run_bind_ok hflushes.flush
        change ((World.serve .flush).run w).2.store.Tidy
        rw [hrun]
        exact h.tidy_after htidy hpruned
      · obtain ⟨n, hn⟩ := Nat.exists_eq_succ_of_ne_zero fun h => hclosed (List.length_eq_zero_iff.1 h)
        have hopen := h.open
        rw [hn] at hopen
        change ((do return .flushed (← World.flush) : WorldM Reply).run w).2.store.Tidy
        rwa [Program.run_bind_error (World.flush_of_open hopen)]
    · change ((World.serve request).run w).2.store.Tidy
      rwa [store_serve hflush]

lemma Describes.tidy_actAll {actions : List Action} (h : r.Describes w) (htidy : w.store.Tidy)
    (hnone : NoneOverflows actions r) : (World.actAll actions w).2.store.Tidy := by
  induction actions generalizing r w with
  | nil => exact htidy
  | cons action rest ih => exact ih (h.act hnone.1).2 (h.tidy_act htidy action) hnone.2

end

/-! ## After a flush -/

section

variable {r r' : Reference} {w w' : World}

/-- Worlds that are what the same maps are answer alike. -/
lemma Describes.retained (h : r.Describes w) (h' : r'.Describes w')
    (hsame : r'.current = r.current) : w.Retained w' where
  account a := by
    rw [World.answer_account, World.answer_account, h.readAccount, h'.readAccount, hsame]
    exact ⟨_, rfl, rfl⟩
  incarnation a := by
    rw [World.answer_incarnation, World.answer_incarnation, h.readIncarnation, h'.readIncarnation,
      hsame]
    exact ⟨_, rfl, rfl⟩
  slot a index := by
    rw [World.answer_slot, World.answer_slot, h.readSlot, h'.readSlot, hsame]
    exact ⟨_, rfl, rfl⟩
  codeOfHash hash := by
    rw [World.answer_codeOfHash, World.answer_codeOfHash, h.readCode, h'.readCode, hsame]
    exact ⟨_, rfl, rfl⟩
  codeOf a := by
    rw [World.answer_codeOf, World.answer_codeOf, h.readCodeOf, h'.readCodeOf, hsame]
    exact ⟨_, rfl, rfl⟩

end

/-- Over a store that is empty or was written by flushes, a flush succeeds whatever has been done
before, if no checkpoint is open and no counter has overflowed. A world that is opened over the
store then answers as the old one did. Everything in the store is a record under a key of its own,
the slots are of the incarnations that the store holds of their accounts, and removing the slots of
an incarnation removes no other record. Another flush writes nothing. -/
theorem flush_lasts (kind kind' : CleanKind) {actions : List Action}
    (hnone : NoneOverflows actions {}) (hclosed : (World.ofActions kind actions).depth = 0) :
    ∃ changes w', World.flush.run (World.ofActions kind actions) = (.ok changes, w') ∧
      (World.ofActions kind actions).Retained (World.ofStore w'.store kind') ∧ w'.store.Tidy ∧
      Function.Injective RecordId.key ∧
      (∀ (s : Store) (a : Address) (n : UInt64) (id : RecordId),
        (∀ index, id ≠ .slot ⟨a, n, index⟩) →
          (s.apply (.prune a n)).entries[id.key]? = s.entries[id.key]?) ∧
      ∃ w'', World.flush.run w' = (.ok {}, w'') ∧ w''.store = w'.store := by
  obtain ⟨-, h⟩ := (describes_ofStore kind).actAll hnone
  have htidy := (describes_ofStore kind).tidy_actAll Store.tidy_empty hnone
  change Describes _ (World.ofActions kind actions) at h
  change (World.ofActions kind actions).store.Tidy at htidy
  generalize World.ofActions kind actions = w at h htidy hclosed
  generalize (actAll actions {}).2 = r at h
  have hsaved : r.saved = [] := List.length_eq_zero_iff.1 (h.open.accounts.symm.trans hclosed)
  obtain ⟨pruned, l, hflushes, hpruned, h'⟩ := h.flushes hsaved
  refine ⟨_, w.after l pruned, hflushes.flush, h.retained (h'.reopen kind') rfl,
    h.tidy_after htidy hpruned, RecordId.key_injective, fun s a n id hid => ?_, ?_⟩
  · rw [Store.getElem?_apply, RecordId.misses_prune hid]
  · exact (World.settled_after w l pruned).flush_run h'.orderly h'.mirrors (h'.closed hsaved)

/-- A contract with two slots is flushed; then its storage is cleared and set again twice, the second
time in a checkpoint that is reverted, and its code is kept once more. -/
def recleared : List Action :=
  [.request (.putAccount 1 {}), .request (.setSlot 1 0 7), .request (.setSlot 1 1 8),
    .request .flush, .request (.clearStorage 1), .request (.setSlot 1 0 9), .request .checkpoint,
    .request (.deleteAccount 1), .request (.setSlot 1 1 5), .request .revert,
    .request (.clearStorage 1), .request (.setSlot 1 1 6), .request (.putCode (Code.ofHashed #[0] 3))]

theorem flush_lasts_recleared :
    ∃ changes w', World.flush.run (World.ofActions .ordered recleared) = (.ok changes, w') ∧
      (World.ofActions .ordered recleared).Retained (World.ofStore w'.store (.recent 1)) ∧
      w'.store.Tidy ∧ Function.Injective RecordId.key ∧
      (∀ (s : Store) (a : Address) (n : UInt64) (id : RecordId),
        (∀ index, id ≠ .slot ⟨a, n, index⟩) →
          (s.apply (.prune a n)).entries[id.key]? = s.entries[id.key]?) ∧
      ∃ w'', World.flush.run w' = (.ok {}, w'') ∧ w''.store = w'.store :=
  flush_lasts .ordered (.recent 1) (by decide +kernel) (by decide +kernel)

end Reference

end Evm
