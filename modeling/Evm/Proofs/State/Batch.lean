import Evm.Proofs.Bytes
import Evm.Proofs.State.Store
import Evm.State.Flush

/-!
# The batch of a flush

Keys of different records are different, so under each key a batch says what its one pending record
says, and leaves the key alone if there is none. The removals come last; they take the slots of the
incarnations that are over, and nothing else.
-/

namespace Evm

/-! ## Keys -/

namespace StoreKey

lemma account_injective : Function.Injective account := fun _ _ h =>
  Bytes.ofAddress_injective (Array.toList_inj.1 (List.cons.inj h).2)

lemma incarnation_injective : Function.Injective incarnation := fun _ _ h =>
  Bytes.ofAddress_injective (Array.toList_inj.1 (List.cons.inj h).2)

lemma code_injective : Function.Injective code := fun _ _ h =>
  Bytes.ofWord_injective (Array.toList_inj.1 (List.cons.inj h).2)

lemma length_ofAddress (a : Address) : (Bytes.ofAddress a).toList.length = 20 := by
  rw [Array.length_toList, Bytes.ofAddress, Bytes.size_ofNat]

lemma length_storage (a : Address) (n : UInt64) : (storage a n).length = 29 := by
  rw [storage, List.cons_append, List.length_cons, List.length_append, length_ofAddress,
    Array.length_toList, Bytes.size_ofNat]

lemma storage_inj {a b : Address} {n k : UInt64} (h : storage a n = storage b k) :
    a = b ∧ n = k := by
  have hlen : (0x73 :: (Bytes.ofAddress a).toList).length =
      (0x73 :: (Bytes.ofAddress b).toList).length := by
    rw [List.length_cons, List.length_cons, length_ofAddress, length_ofAddress]
  obtain ⟨haddress, hcount⟩ := List.append_inj h hlen
  refine ⟨Bytes.ofAddress_injective (Array.toList_inj.1 (List.cons.inj haddress).2), ?_⟩
  exact UInt64.toNat_inj.1 (Bytes.ofNat_injOn n.toNat_lt k.toNat_lt (Array.toList_inj.1 hcount))

lemma slot_injective : Function.Injective slot := by
  rintro ⟨a, n, i⟩ ⟨b, k, j⟩ h
  have hlen : (storage a n).length = (storage b k).length := by
    rw [length_storage, length_storage]
  obtain ⟨hstorage, hindex⟩ := List.append_inj h hlen
  obtain ⟨haddress, hcount⟩ : a = b ∧ n = k := storage_inj hstorage
  have hslot : i = j := Bytes.ofWord_injective (Array.toList_inj.1 hindex)
  rw [haddress, hcount, hslot]

/-- The slots of one incarnation are those whose keys begin like that. -/
lemma storage_isPrefixOf_slot {a : Address} {n : UInt64} {key : SlotKey} :
    (storage a n).isPrefixOf (slot key) = true ↔ (a, n) = (key.address, key.incarnation) := by
  rw [List.isPrefixOf_iff_prefix, Prod.mk.injEq]
  constructor
  · intro h
    have hbegins : storage a n <+: storage key.address key.incarnation :=
      List.prefix_of_prefix_length_le h (List.prefix_append _ _)
        (by rw [length_storage, length_storage])
    exact storage_inj (hbegins.eq_of_length (by rw [length_storage, length_storage]))
  · rintro ⟨rfl, rfl⟩
    exact List.prefix_append _ _

end StoreKey

/-! ## What a write is about -/

namespace BatchOp

/-- The key that a write is about, or the beginning of the keys. -/
def target : BatchOp → Key
  | put key _ => key
  | del key => key
  | delPrefix start => start

lemma misses_put {key key' : Key} (value : Bytes) (h : key' ≠ key) : (put key' value).Misses key :=
  fun _ => if_neg h

lemma misses_del {key key' : Key} (h : key' ≠ key) : (del key').Misses key :=
  fun _ => if_neg h

/-- Writes of one kind leave the keys of other kinds alone. -/
lemma misses_of_head {op : BatchOp} {key : Key} {x : UInt8} (h : op.target.head? = some x)
    (hkey : key.head? ≠ some x) : op.Misses key := by
  intro old
  cases op with
  | put key' value => exact misses_put value (fun heq : key' = key => hkey (heq ▸ h)) old
  | del key' => exact misses_del (fun heq : key' = key => hkey (heq ▸ h)) old
  | delPrefix start =>
    cases start with
    | nil => cases h
    | cons y start =>
      cases key with
      | nil => rfl
      | cons z key =>
        refine if_neg fun hbegins => hkey ?_
        rw [List.isPrefixOf, Bool.and_eq_true, beq_iff_eq] at hbegins
        rw [List.head?_cons, ← hbegins.1, ← h, target, List.head?_cons]

lemma head?_ofCode (e : Hash × Bytes) : (ofCode e.1 e.2).target.head? = some 0x63 := rfl

lemma head?_ofIncarnation (e : Address × UInt64) :
    (ofIncarnation e.1 e.2).target.head? = some 0x69 := rfl

lemma head?_ofAccount (e : Address × Option Account) :
    (ofAccount e.1 e.2).target.head? = some 0x61 := by
  cases e.2 <;> rfl

lemma head?_ofSlot (e : SlotKey × Option Word) :
    (ofSlot e.1 e.2).target.head? = some 0x73 := by
  cases e.2 <;> rfl

lemma head?_prune (e : Address × UInt64) : (prune e.1 e.2).target.head? = some 0x73 := rfl

/-- A part of a batch that is about keys of another kind. -/
lemma foldl_map_of_head {α : Type} {l : List α} {op : α → BatchOp} {key : Key} {x : UInt8}
    (h : ∀ e, (op e).target.head? = some x) (hkey : key.head? ≠ some x) (old : Option Bytes) :
    (l.map op).foldl (update key) old = old := by
  refine foldl_update_of_misses (fun op' hop' => ?_) old
  obtain ⟨e, -, rfl⟩ := List.mem_map.1 hop'
  exact misses_of_head (h e) hkey

/-- Of steps for all entries of a map, only that for one key counts if the others do nothing. -/
lemma foldl_toList {κ α β : Type} [Ord κ] [Std.TransOrd κ] [Std.LawfulEqOrd κ]
    (entries : Std.ExtTreeMap κ α) (key : κ) {f : β → κ × α → β}
    (hother : ∀ b e, e.1 ≠ key → f b e = b) (b : β) :
    entries.toList.foldl f b = entries[key]?.elim b fun value => f b (key, value) := by
  have hskip (l : List (κ × α)) (hl : ∀ e ∈ l, e.1 ≠ key) (b : β) : l.foldl f b = b := by
    induction l with
    | nil => rfl
    | cons e l ih =>
      rw [List.foldl_cons, hother b e (hl e List.mem_cons_self)]
      exact ih fun e' he' => hl e' (List.mem_cons_of_mem e he')
  cases hvalue : entries[key]? with
  | none =>
    refine hskip _ (fun e he heq => ?_) b
    have hsome := Std.ExtTreeMap.mem_toList_iff_getElem?_eq_some.1 he
    rw [heq, hvalue] at hsome
    cases hsome
  | some value =>
    -- The entry of the key stands somewhere, and the ones around it have other keys.
    obtain ⟨before, after, hsplit⟩ :=
      List.append_of_mem (Std.ExtTreeMap.mem_toList_iff_getElem?_eq_some.2 hvalue)
    have hdistinct := entries.distinct_keys_toList
    rw [hsplit] at hdistinct ⊢
    obtain ⟨-, hafter, hbefore⟩ := List.pairwise_append.1 hdistinct
    rw [List.foldl_append, hskip before fun e he heq => ?_, List.foldl_cons,
      hskip after fun e he heq => ?_]
    · rfl
    · exact (List.pairwise_cons.1 hafter).1 e he (heq ▸ Std.ReflOrd.compare_self)
    · exact hbefore e he _ List.mem_cons_self (heq ▸ Std.ReflOrd.compare_self)

end BatchOp

/-! ## Parts of a batch -/

namespace Pending

variable {key : Key} (old : Option Bytes)

lemma update_code (l : List (Hash × Bytes)) (hkey : key.head? ≠ some 0x63) :
    (l.map fun e => BatchOp.ofCode e.1 e.2).foldl (BatchOp.update key) old = old :=
  BatchOp.foldl_map_of_head BatchOp.head?_ofCode hkey old

lemma update_incarnations (l : List (Address × UInt64)) (hkey : key.head? ≠ some 0x69) :
    (l.map fun e => BatchOp.ofIncarnation e.1 e.2).foldl (BatchOp.update key) old = old :=
  BatchOp.foldl_map_of_head BatchOp.head?_ofIncarnation hkey old

lemma update_accounts (l : List (Address × Option Account)) (hkey : key.head? ≠ some 0x61) :
    (l.map fun e => BatchOp.ofAccount e.1 e.2).foldl (BatchOp.update key) old = old :=
  BatchOp.foldl_map_of_head BatchOp.head?_ofAccount hkey old

lemma update_slots (l : List (SlotKey × Option Word)) (hkey : key.head? ≠ some 0x73) :
    (l.map fun e => BatchOp.ofSlot e.1 e.2).foldl (BatchOp.update key) old = old :=
  BatchOp.foldl_map_of_head BatchOp.head?_ofSlot hkey old

lemma update_pruned (l : List (Address × UInt64)) (hkey : key.head? ≠ some 0x73) :
    (l.map fun e => BatchOp.prune e.1 e.2).foldl (BatchOp.update key) old = old :=
  BatchOp.foldl_map_of_head BatchOp.head?_prune hkey old

/-- The parts of a batch come one after the other. -/
lemma update_ops (p : Pending) (key : Key) :
    p.ops.foldl (BatchOp.update key) old =
      (p.pruned.map fun e => BatchOp.prune e.1 e.2).foldl (BatchOp.update key)
        ((p.slots.map fun e => BatchOp.ofSlot e.1 e.2).foldl (BatchOp.update key)
          ((p.accounts.map fun e => BatchOp.ofAccount e.1 e.2).foldl (BatchOp.update key)
            ((p.incarnations.map fun e => BatchOp.ofIncarnation e.1 e.2).foldl (BatchOp.update key)
              ((p.code.map fun e => BatchOp.ofCode e.1 e.2).foldl (BatchOp.update key) old)))) := by
  rw [ops, List.foldl_append, List.foldl_append, List.foldl_append, List.foldl_append]

lemma update_account (p : Pending) (a : Address) :
    p.ops.foldl (BatchOp.update (StoreKey.account a)) old =
      p.accounts.foldl (fun old e =>
        (BatchOp.ofAccount e.1 e.2).update (StoreKey.account a) old) old := by
  have hkey {x : UInt8} (hx : 0x61 ≠ x) : (StoreKey.account a).head? ≠ some x :=
    fun h => hx (Option.some.inj h)
  rw [update_ops, update_pruned _ _ (hkey (by decide)), update_slots _ _ (hkey (by decide)),
    update_code _ _ (hkey (by decide)), update_incarnations _ _ (hkey (by decide)), List.foldl_map]

lemma update_incarnation (p : Pending) (a : Address) :
    p.ops.foldl (BatchOp.update (StoreKey.incarnation a)) old =
      p.incarnations.foldl (fun old e =>
        (BatchOp.ofIncarnation e.1 e.2).update (StoreKey.incarnation a) old) old := by
  have hkey {x : UInt8} (hx : 0x69 ≠ x) : (StoreKey.incarnation a).head? ≠ some x :=
    fun h => hx (Option.some.inj h)
  rw [update_ops, update_pruned _ _ (hkey (by decide)), update_slots _ _ (hkey (by decide)),
    update_accounts _ _ (hkey (by decide)), update_code _ _ (hkey (by decide)), List.foldl_map]

lemma update_codeOfHash (p : Pending) (hash : Hash) :
    p.ops.foldl (BatchOp.update (StoreKey.code hash)) old =
      p.code.foldl (fun old e => (BatchOp.ofCode e.1 e.2).update (StoreKey.code hash) old) old := by
  have hkey {x : UInt8} (hx : 0x63 ≠ x) : (StoreKey.code hash).head? ≠ some x :=
    fun h => hx (Option.some.inj h)
  rw [update_ops, update_pruned _ _ (hkey (by decide)), update_slots _ _ (hkey (by decide)),
    update_accounts _ _ (hkey (by decide)), update_incarnations _ _ (hkey (by decide)),
    List.foldl_map]

/-- The slots of the incarnations that are over are removed. -/
lemma update_slot (p : Pending) (key : SlotKey) :
    p.ops.foldl (BatchOp.update (StoreKey.slot key)) old =
      if (key.address, key.incarnation) ∈ p.pruned then none
      else p.slots.foldl (fun old e =>
        (BatchOp.ofSlot e.1 e.2).update (StoreKey.slot key) old) old := by
  have hkey {x : UInt8} (hx : 0x73 ≠ x) : (StoreKey.slot key).head? ≠ some x :=
    fun h => hx (Option.some.inj h)
  have hprune (l : List (Address × UInt64)) (old : Option Bytes) :
      (l.map fun e => BatchOp.prune e.1 e.2).foldl (BatchOp.update (StoreKey.slot key)) old =
        if (key.address, key.incarnation) ∈ l then none else old := by
    induction l generalizing old with
    | nil => rw [if_neg List.not_mem_nil, List.map_nil, List.foldl_nil]
    | cons e l ih =>
      rw [List.map_cons, List.foldl_cons, ih, BatchOp.prune, BatchOp.update]
      simp only [StoreKey.storage_isPrefixOf_slot, List.mem_cons]
      grind
  rw [update_ops, hprune, update_accounts _ _ (hkey (by decide)), update_code _ _ (hkey (by decide)),
    update_incarnations _ _ (hkey (by decide)), List.foldl_map]

end Pending

/-! ## What a batch says about each key -/

namespace World

/-- What is pending in the caches of a world, if these are the incarnations that are over. -/
def pending (w : World) (pruned : List (Address × UInt64)) : Pending where
  code := w.code.dirty.toList.filterMap fun e => e.2.map fun code => (e.1, code.bytes)
  incarnations := w.incarnations.dirty.toList.map fun e => (e.1, e.2.getD 0)
  accounts := w.accounts.dirty.toList
  slots := w.storage.dirty.toList.filter fun e => !isOver w.incarnations.dirty e.1
  pruned

variable (w : World) (pruned : List (Address × UInt64)) (old : Option Bytes)

lemma update_account (a : Address) :
    (w.pending pruned).ops.foldl (BatchOp.update (StoreKey.account a)) old =
      w.accounts.dirty[a]?.elim old (Option.map fun record => record.encode.toArray) := by
  have hother (old : Option Bytes) (e : Address × Option Account) (hne : e.1 ≠ a) :
      (BatchOp.ofAccount e.1 e.2).update (StoreKey.account a) old = old := by
    have hne' : StoreKey.account e.1 ≠ StoreKey.account a :=
      fun h => hne (StoreKey.account_injective h)
    cases e.2 with
    | none => exact BatchOp.misses_del hne' old
    | some record => exact BatchOp.misses_put _ hne' old
  have haccounts : (w.pending pruned).accounts = w.accounts.dirty.toList := rfl
  rw [Pending.update_account, haccounts, BatchOp.foldl_toList w.accounts.dirty a hother]
  rcases w.accounts.dirty[a]? with _ | _ | record
  · rfl
  · simp only [Option.elim_some, BatchOp.ofAccount, BatchOp.update, if_true, Option.map]
  · simp only [Option.elim_some, BatchOp.ofAccount, BatchOp.update, if_true, Option.map]

lemma update_incarnation (a : Address) :
    (w.pending pruned).ops.foldl (BatchOp.update (StoreKey.incarnation a)) old =
      w.incarnations.dirty[a]?.elim old fun n? => some (Bytes.ofNat 8 (n?.getD 0).toNat) := by
  have hincarnations : (w.pending pruned).incarnations =
      w.incarnations.dirty.toList.map fun e => (e.1, e.2.getD 0) := rfl
  rw [Pending.update_incarnation, hincarnations, List.foldl_map,
    BatchOp.foldl_toList w.incarnations.dirty a]
  · rcases w.incarnations.dirty[a]? with _ | n?
    · rw [Option.elim_none, Option.elim_none]
    · simp only [Option.elim_some, BatchOp.ofIncarnation, BatchOp.update, if_true]
  · intro old e hne
    exact BatchOp.misses_put _ (fun h => hne (StoreKey.incarnation_injective h)) old

lemma update_codeOfHash (hash : Hash) :
    (w.pending pruned).ops.foldl (BatchOp.update (StoreKey.code hash)) old =
      w.code.dirty[hash]?.elim old fun code? => code?.elim old fun code => some code.bytes := by
  have hcode : (w.pending pruned).code =
      w.code.dirty.toList.filterMap fun e => e.2.map fun code => (e.1, code.bytes) := rfl
  rw [Pending.update_codeOfHash, hcode, List.foldl_filterMap,
    BatchOp.foldl_toList w.code.dirty hash]
  · rcases w.code.dirty[hash]? with _ | _ | code
    · rw [Option.elim_none, Option.elim_none]
    · rw [Option.elim_some, Option.elim_some, Option.elim_none]
      rfl
    · simp only [Option.elim_some, Option.map, BatchOp.ofCode, BatchOp.update, if_true]
  · rintro old ⟨other, _ | code⟩ hne
    · rfl
    · exact BatchOp.misses_put _ (fun h => hne (StoreKey.code_injective h)) old

/-- Slots of incarnations that are over are not written. -/
lemma update_slot (key : SlotKey) :
    (w.pending pruned).ops.foldl (BatchOp.update (StoreKey.slot key)) old =
      if (key.address, key.incarnation) ∈ pruned then none
      else if isOver w.incarnations.dirty key then old
      else w.storage.dirty[key]?.elim old
        (Option.map fun value => (Rlp.encodeNat value.toNat).toArray) := by
  have hslots : (w.pending pruned).slots =
      w.storage.dirty.toList.filter fun e => !isOver w.incarnations.dirty e.1 := rfl
  have hpruned : (w.pending pruned).pruned = pruned := rfl
  rw [Pending.update_slot, hslots, hpruned, List.foldl_filter,
    BatchOp.foldl_toList w.storage.dirty key]
  · rcases w.storage.dirty[key]? with _ | _ | value
    · simp only [Option.elim_none, ite_self]
    · rw [Option.elim_some, Option.elim_some]
      dsimp only
      cases isOver w.incarnations.dirty key with
      | true => rfl
      | false => simp [BatchOp.ofSlot, BatchOp.update]
    · rw [Option.elim_some, Option.elim_some]
      dsimp only
      cases isOver w.incarnations.dirty key with
      | true => rfl
      | false => simp [BatchOp.ofSlot, BatchOp.update]
  · rintro old ⟨other, value?⟩ hne
    have hne' : StoreKey.slot other ≠ StoreKey.slot key := fun h => hne (StoreKey.slot_injective h)
    split
    · cases value? with
      | none => exact BatchOp.misses_del hne' old
      | some value => exact BatchOp.misses_put _ hne' old
    · rfl

end World

end Evm
