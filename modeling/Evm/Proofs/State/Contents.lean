import Mathlib.Data.Finmap
import Evm.Proofs.State.Store

/-!
# What a store holds

A finite map from keys to values, in which keys have no order. Removing a beginning from it takes
away the keys that have it, which a store finds by a scan of its ascending keys. A batch leaves what
its writes leave when they are made to the finite map one after the other (`Store.batch_contents`).
-/

namespace Evm

/-- What is held under each key. -/
abbrev Contents := Finmap fun _ : Key => Bytes

namespace Contents

/-- What is left when all keys with a beginning are removed. -/
def without (c : Contents) (start : Key) : Contents where
  entries := c.entries.filter fun e => ¬ start <+: e.1
  nodupKeys := by
    have hkeys : (c.entries.filter fun e => ¬ start <+: e.1).keys ≤ c.entries.keys :=
      Multiset.map_le_map (Multiset.filter_le _ c.entries)
    exact Multiset.nodup_keys.1 (Multiset.nodup_of_le hkeys (Multiset.nodup_keys.2 c.nodupKeys))

/-- What is held after a write. -/
def write (c : Contents) : BatchOp → Contents
  | .put key value => c.insert key value
  | .del key => c.erase key
  | .delPrefix start => c.without start

lemma lookup_without (c : Contents) (start key : Key) :
    (c.without start).lookup key = if start <+: key then none else c.lookup key := by
  refine Option.ext fun value => ?_
  rw [Finmap.lookup_eq_some_iff, without, Multiset.mem_filter, ← Finmap.lookup_eq_some_iff]
  split
  case isTrue h => exact ⟨fun hmem => absurd h hmem.2, fun hmem => by cases hmem⟩
  case isFalse h => exact and_iff_left h

/-- One write. -/
lemma lookup_write (c : Contents) (op : BatchOp) (key : Key) :
    (c.write op).lookup key = op.update key (c.lookup key) := by
  cases op with
  | put key' value =>
    rw [write, BatchOp.update]
    split
    case isTrue h => rw [h, Finmap.lookup_insert]
    case isFalse h => exact Finmap.lookup_insert_of_ne c (Ne.symm h)
  | del key' =>
    rw [write, BatchOp.update]
    split
    case isTrue h => rw [h, Finmap.lookup_erase]
    case isFalse h => exact Finmap.lookup_erase_ne (Ne.symm h)
  | delPrefix start =>
    rw [write, BatchOp.update, lookup_without]
    simp only [List.isPrefixOf_iff_prefix]

end Contents

namespace Store

/-- What a store holds, in no order. -/
def contents (s : Store) : Contents where
  entries := (s.entries.toList.map Prod.toSigma : Multiset (Sigma fun _ : Key => Bytes))
  nodupKeys := by
    have hkeys : (s.entries.toList.map Prod.toSigma).keys = s.entries.keys := by
      rw [List.keys, List.map_map, Prod.fst_comp_toSigma, Std.ExtTreeMap.map_fst_toList_eq_keys]
    rw [Multiset.coe_nodupKeys, List.NodupKeys, hkeys]
    exact Std.ExtTreeMap.nodup_keys

lemma lookup_contents (s : Store) (key : Key) : s.contents.lookup key = s.entries[key]? := by
  refine Option.ext fun value => ?_
  rw [Finmap.lookup_eq_some_iff, contents, Multiset.mem_coe, ← Prod.toSigma_mk,
    List.mem_map_of_injective Prod.toSigma_injective,
    Std.ExtTreeMap.mem_toList_iff_getElem?_eq_some]

/-- One write. -/
lemma contents_apply (s : Store) (op : BatchOp) :
    (s.apply op).contents = s.contents.write op :=
  Finmap.ext_lookup fun key => by
    rw [lookup_contents, getElem?_apply, Contents.lookup_write, lookup_contents]

/-- A batch. -/
lemma contents_foldl_apply (s : Store) (ops : List BatchOp) :
    (ops.foldl apply s).contents = ops.foldl Contents.write s.contents := by
  induction ops generalizing s with
  | nil => rfl
  | cons op ops ih => rw [List.foldl_cons, List.foldl_cons, ih, contents_apply]

/-- A batch succeeds and leaves exactly what its writes, made one after the other, leave of the
finite map. Whatever a store holds, the scan for a removal, which starts at the beginning and stops
at the first key without it, meets all keys that have it, and no others. -/
theorem batch_contents (entries : Std.ExtTreeMap Key Bytes) (ops : List BatchOp) :
    (∃ left : Std.ExtTreeMap Key Bytes,
      ({ entries } : Store).batch ops = .ok { entries := left } ∧
      contents { entries := left } = ops.foldl Contents.write (contents { entries })) ∧
    ∀ start, ({ entries } : Store).keysWithPrefix start = entries.keys.filter start.isPrefixOf := by
  obtain ⟨left, hleft⟩ :
      ∃ left, ops.foldl apply ({ entries } : Store) = { entries := left } :=
    ⟨_, congrArg (Store.mk _) (faults_foldl_apply _ ops)⟩
  refine ⟨⟨left, ?_, ?_⟩, fun start => keysWithPrefix_eq _ start⟩
  · rw [batch_of_faultless rfl, hleft]
  · rw [← hleft, contents_foldl_apply]

/-- Keys next to those with the beginning stay, and a key that the batch has written before goes. -/
example :
    let entries : List (Key × Bytes) := [([1], #[]), ([1, 2, 3], #[]), ([1, 3], #[])]
    (({ entries := .ofList entries } : Store).batch
      [.put [1, 2] #[], .delPrefix [1, 2], .put [1, 2, 4] #[]]).map (·.entries.keys) =
        .ok [[1], [1, 2, 4], [1, 3]] := by rfl

end Store

end Evm
