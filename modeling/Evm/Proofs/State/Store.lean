import Mathlib.Tactic
import Evm.State.Store

/-!
# Writes to the store

What the store holds under a key once a batch is applied. Each write says something about a key or
leaves it alone, and what is said last counts; removing a beginning says that nothing is held under
the keys that have it, which are found because they stand together in the order of keys.
-/

namespace Evm

/-! ## Keys with a common beginning -/

namespace Store

lemma compare_cons (x y : UInt8) (xs ys : Key) :
    compare (x :: xs) (y :: ys) = (compare x y).then (compare xs ys) :=
  List.compareLex_cons_cons

/-- A beginning comes before everything that it begins. -/
lemma compare_of_isPrefixOf {start key : Key} (h : start.isPrefixOf key = true) :
    compare key start ≠ .lt := by
  induction start generalizing key with
  | nil => cases key <;> exact fun hlt => by cases hlt
  | cons x start ih =>
    cases key with
    | nil => cases h
    | cons y key =>
      rw [List.isPrefixOf, Bool.and_eq_true, beq_iff_eq] at h
      obtain ⟨rfl, h⟩ := h
      rw [compare_cons, Std.ReflOrd.compare_self]
      exact ih h

/-- Between a beginning and a key that has it there are only keys that have it. -/
lemma isPrefixOf_of_between {start key key' : Key} (hstart : compare key start ≠ .lt)
    (hlt : compare key key' = .lt) (h : start.isPrefixOf key' = true) :
    start.isPrefixOf key = true := by
  induction start generalizing key key' with
  | nil => rfl
  | cons x start ih =>
    cases key with
    | nil => exact absurd rfl hstart
    | cons y key =>
      cases key' with
      | nil => cases h
      | cons z key' =>
        rw [List.isPrefixOf, Bool.and_eq_true, beq_iff_eq] at h
        obtain ⟨rfl, h⟩ := h
        rw [compare_cons] at hstart hlt
        -- The first byte is at least that of the beginning and at most that of the other key.
        cases hc : compare y x with
        | lt => rw [hc] at hstart; exact absurd rfl hstart
        | gt => rw [hc] at hlt; cases hlt
        | eq =>
          rw [hc] at hstart hlt
          rw [List.isPrefixOf, Std.LawfulEqOrd.eq_of_compare hc, beq_self_eq_true, Bool.true_and]
          exact ih hstart hlt h

/-- In ascending keys that a beginning comes before, the ones that have it come first. -/
lemma takeWhile_isPrefixOf {start : Key} {keys : List Key}
    (sorted : keys.Pairwise (compare · · = .lt)) (hstart : ∀ k ∈ keys, compare k start ≠ .lt) :
    keys.takeWhile start.isPrefixOf = keys.filter start.isPrefixOf := by
  induction keys with
  | nil => rfl
  | cons k rest ih =>
    obtain ⟨hlt, sorted⟩ := List.pairwise_cons.1 sorted
    by_cases h : start.isPrefixOf k = true
    · rw [List.takeWhile_cons_of_pos h, List.filter_cons_of_pos h,
        ih sorted fun k' hk' => hstart k' (List.mem_cons_of_mem k hk')]
    · -- A later key with the beginning would have `k` between the two.
      have hrest : rest.filter start.isPrefixOf = [] := List.filter_eq_nil_iff.2 fun k' hk' h' =>
        h (isPrefixOf_of_between (hstart k List.mem_cons_self) (hlt k' hk') h')
      rw [List.takeWhile_cons_of_neg h, List.filter_cons_of_neg h, hrest]

/-- A scan of ascending keys that starts at a beginning and stops at the first key without it meets
all keys that have it. -/
lemma takeWhile_dropWhile_isPrefixOf {keys : List Key} (start : Key)
    (sorted : keys.Pairwise (compare · · = .lt)) :
    (keys.dropWhile fun key => compare key start == .lt).takeWhile start.isPrefixOf =
      keys.filter start.isPrefixOf := by
  induction keys with
  | nil => rfl
  | cons k rest ih =>
    obtain ⟨hlt, hrest⟩ := List.pairwise_cons.1 sorted
    by_cases hk : compare k start = .lt
    · have h : ¬ start.isPrefixOf k = true := fun h => compare_of_isPrefixOf h hk
      rw [List.dropWhile_cons, if_pos (beq_iff_eq.2 hk), List.filter_cons_of_neg h, ih hrest]
    · rw [List.dropWhile_cons, if_neg fun hlt => hk (beq_iff_eq.1 hlt)]
      refine takeWhile_isPrefixOf sorted fun k' hk' hlt' => ?_
      rcases List.mem_cons.1 hk' with rfl | hmem
      · exact hk hlt'
      · exact hk (Std.TransCmp.lt_trans (hlt k' hmem) hlt')

/-- The keys with a beginning are found, in order. -/
lemma keysWithPrefix_eq (s : Store) (start : Key) :
    s.keysWithPrefix start = s.entries.keys.filter start.isPrefixOf :=
  takeWhile_dropWhile_isPrefixOf start s.entries.ordered_keys

lemma mem_keysWithPrefix {s : Store} {start key : Key} :
    key ∈ s.keysWithPrefix start ↔ key ∈ s.entries ∧ start.isPrefixOf key = true := by
  rw [keysWithPrefix_eq, List.mem_filter, Std.ExtTreeMap.mem_keys]

end Store

/-! ## What a write says about a key -/

namespace BatchOp

/-- What is held under a key after a write. -/
def update (key : Key) (old : Option Bytes) : BatchOp → Option Bytes
  | put key' value => if key' = key then some value else old
  | del key' => if key' = key then none else old
  | delPrefix start => if start.isPrefixOf key then none else old

/-- Whether a write leaves a key alone. -/
def Misses (key : Key) (op : BatchOp) : Prop := ∀ old, op.update key old = old

/-- Writes that leave a key alone. -/
lemma foldl_update_of_misses {ops : List BatchOp} {key : Key} (h : ∀ op ∈ ops, op.Misses key)
    (old : Option Bytes) : ops.foldl (update key) old = old := by
  induction ops with
  | nil => rfl
  | cons op ops ih =>
    rw [List.foldl_cons, h op List.mem_cons_self old]
    exact ih fun op' hop' => h op' (List.mem_cons_of_mem op hop')

end BatchOp

namespace Store

@[simp] lemma faults_apply (s : Store) (op : BatchOp) : (s.apply op).faults = s.faults := by
  cases op with
  | put key value => rfl
  | del key => rfl
  | delPrefix start =>
    rw [apply]
    induction s.keysWithPrefix start generalizing s with
    | nil => rfl
    | cons key keys ih => exact ih (s.del key)

@[simp] lemma faults_foldl_apply (s : Store) (ops : List BatchOp) :
    (ops.foldl apply s).faults = s.faults := by
  induction ops generalizing s with
  | nil => rfl
  | cons op ops ih => rw [List.foldl_cons, ih, faults_apply]

lemma getElem?_foldl_del (s : Store) (keys : List Key) (key : Key) :
    (keys.foldl del s).entries[key]? = if key ∈ keys then none else s.entries[key]? := by
  induction keys generalizing s with
  | nil => rw [if_neg List.not_mem_nil, List.foldl_nil]
  | cons k keys ih =>
    rw [List.foldl_cons, ih, del]
    simp only [Std.ExtTreeMap.getElem?_erase, Std.LawfulEqOrd.compare_eq_iff_eq, List.mem_cons]
    grind

/-- One write. -/
lemma getElem?_apply (s : Store) (op : BatchOp) (key : Key) :
    (s.apply op).entries[key]? = op.update key s.entries[key]? := by
  cases op with
  | put key' value =>
    simp only [apply, put, BatchOp.update, Std.ExtTreeMap.getElem?_insert,
      Std.LawfulEqOrd.compare_eq_iff_eq]
  | del key' =>
    simp only [apply, del, BatchOp.update, Std.ExtTreeMap.getElem?_erase,
      Std.LawfulEqOrd.compare_eq_iff_eq]
  | delPrefix start =>
    rw [apply, getElem?_foldl_del, BatchOp.update]
    by_cases h : start.isPrefixOf key = true
    · rw [if_pos h]
      by_cases hkey : key ∈ s.entries
      · rw [if_pos (mem_keysWithPrefix.2 ⟨hkey, h⟩)]
      · rw [Std.ExtTreeMap.getElem?_eq_none hkey, ite_self]
    · rw [if_neg h, if_neg fun hmem => h (mem_keysWithPrefix.1 hmem).2]

/-- A batch. -/
lemma getElem?_foldl_apply (s : Store) (ops : List BatchOp) (key : Key) :
    (ops.foldl apply s).entries[key]? = ops.foldl (BatchOp.update key) s.entries[key]? := by
  induction ops generalizing s with
  | nil => rfl
  | cons op ops ih => rw [List.foldl_cons, List.foldl_cons, ih, getElem?_apply]

/-- What is held under a key that a batch leaves alone stays, and so does whether it can be read. -/
lemma get_foldl_apply (s : Store) (ops : List BatchOp) (key : Key) :
    (ops.foldl apply s).get key = (s.get key).map (ops.foldl (BatchOp.update key)) := by
  rw [get, get, faults_foldl_apply, getElem?_foldl_apply]
  split <;> rfl

lemma get_of_faultless {s : Store} (h : s.faults = {}) (key : Key) (e : StoreError) :
    s.get key ≠ .error e := by
  rw [get, h]
  exact nofun

lemma batch_of_faultless {s : Store} (h : s.faults = {}) (ops : List BatchOp) :
    s.batch ops = .ok (ops.foldl apply s) := by
  rw [batch, h]
  rfl

end Store

end Evm
