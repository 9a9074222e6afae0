import Mathlib.Tactic
import Evm.State.Cache

/-!
# Caches and snapshots

A cache keeps a diff for every open checkpoint; a reader thinks of it as keeping a full copy of the
pending writes instead. `Cache.saved` is that list of copies, computed from the diffs. In its terms
the operations are those of a stack: opening a checkpoint pushes the pending writes, committing
drops the latest copy, reverting puts it back, and a write leaves the copies alone.

The clean layer is seen through `CleanLayer.peek?` only. It may forget entries, but it never
invents one: what it says was told to it.
-/

namespace Evm

/-! ## The clean layer -/

namespace CleanLayer

variable {κ ν : Type} [Ord κ] [Std.TransOrd κ]

/-- What the layer says about a key. -/
def peek? (c : CleanLayer κ ν) (key : κ) : Option (Option ν) := (c.get key).1

/-- Whether the layer never forgets an entry. -/
def keepsAll : CleanLayer κ ν → Bool
  | ordered _ => true
  | recent _ _ => false

/-- Reading an entry does not change whether the layer forgets. -/
@[simp] lemma keepsAll_get (c : CleanLayer κ ν) (key : κ) : (c.get key).2.keepsAll = c.keepsAll := by
  cases c with
  | ordered entries => rfl
  | recent capacity entries =>
    simp only [get]
    split <;> rfl

/-- Setting an entry does not change whether the layer forgets. -/
@[simp] lemma keepsAll_insert (c : CleanLayer κ ν) (key : κ) (value : Option ν) :
    (c.insert key value).keepsAll = c.keepsAll := by
  cases c <;> rfl

lemma peek?_recent (capacity : Nat) (entries : List (κ × Option ν)) (key : κ) :
    (recent capacity entries).peek? key =
      (entries.find? (sameKey key ·.1)).map Prod.snd := by
  simp only [peek?, get]
  split
  · rename_i h
    rw [h, Option.map_none]
  · rename_i e h
    rw [h, Option.map_some]

variable [Std.LawfulEqOrd κ]

omit [Std.TransOrd κ] in
lemma sameKey_iff {a b : κ} : sameKey a b = true ↔ a = b := by
  simp [sameKey]

omit [Std.TransOrd κ] in
/-- Removing the first entry of one key is not seen under another. -/
lemma find?_eraseP_of_ne {key other : κ} (ne : other ≠ key) (entries : List (κ × Option ν)) :
    (entries.eraseP (sameKey key ·.1)).find? (sameKey other ·.1) =
      entries.find? (sameKey other ·.1) := by
  induction entries with
  | nil => rfl
  | cons e rest ih =>
    by_cases h : sameKey key e.1 = true
    · have hne : sameKey other e.1 = false := by
        rw [Bool.eq_false_iff]
        intro h'
        exact ne ((sameKey_iff.1 h').trans (sameKey_iff.1 h).symm)
      simp [h, hne]
    · simp [h, List.find?_cons, ih]

/-- Reading an entry changes what the layer remembers last, but not what it says. -/
@[simp] lemma peek?_get (c : CleanLayer κ ν) (key other : κ) :
    (c.get key).2.peek? other = c.peek? other := by
  cases c with
  | ordered entries => rfl
  | recent capacity entries =>
    simp only [get]
    split
    · rfl
    · rename_i e he
      have hk : sameKey key e.1 = true := by simpa using List.find?_some he
      rw [peek?_recent, peek?_recent]
      by_cases h : sameKey other e.1 = true
      · have hok : other = key := (sameKey_iff.1 h).trans (sameKey_iff.1 hk).symm
        subst hok
        simp [h, he]
      · have hne : other ≠ key := fun hok => h (hok ▸ hk)
        simp [h, find?_eraseP_of_ne hne]

/-- What a layer says after an entry is set is that entry, or was said before. -/
lemma peek?_insert_some {c : CleanLayer κ ν} {key other : κ} {value entry : Option ν}
    (h : (c.insert key value).peek? other = some entry) :
    (other = key ∧ entry = value) ∨ (other ≠ key ∧ c.peek? other = some entry) := by
  cases c with
  | ordered entries =>
    simp only [insert, peek?, get, Std.ExtTreeMap.getElem?_insert] at h
    split at h
    · rename_i hk
      cases h
      exact .inl ⟨(Std.LawfulEqOrd.eq_of_compare hk).symm, rfl⟩
    · rename_i hk
      refine .inr ⟨fun e => hk ?_, h⟩
      rw [e]
      exact Std.ReflOrd.compare_self
  | recent capacity entries =>
    simp only [insert] at h
    rw [peek?_recent, Option.map_eq_some_iff] at h
    obtain ⟨e, he, rfl⟩ := h
    have hfull := (List.take_prefix _ _).find?_eq_some he
    rw [List.find?_cons] at hfull
    split at hfull
    · rename_i hk
      cases hfull
      exact .inl ⟨sameKey_iff.1 hk, rfl⟩
    · rename_i hk
      have hne : other ≠ key := fun e => by rw [sameKey_iff.2 e] at hk; cases hk
      rw [find?_eraseP_of_ne hne] at hfull
      exact .inr ⟨hne, by rw [peek?_recent, hfull, Option.map_some]⟩

/-- A layer that forgets nothing says what it was told last. -/
lemma peek?_insert_of_keepsAll [DecidableEq κ] {c : CleanLayer κ ν} (hc : c.keepsAll = true) (key other : κ)
    (value : Option ν) :
    (c.insert key value).peek? other = if other = key then some value else c.peek? other := by
  cases c with
  | recent capacity entries => cases hc
  | ordered entries =>
    simp only [insert, peek?, get, Std.ExtTreeMap.getElem?_insert,
      Std.LawfulEqOrd.compare_eq_iff_eq, eq_comm (a := other)]

/-! ### Forgetting and refetching -/

/-- How a layer may change while nothing is flushed: it forgets entries, unless it keeps all, and
takes on entries that the store holds. -/
structure Refreshed {ε : Type} (stored : κ → Except ε (Option ν)) (l l' : CleanLayer κ ν) :
    Prop where
  keepsAll : l'.keepsAll = l.keepsAll
  entry : ∀ {key e}, l'.peek? key = some e → l.peek? key = some e ∨ stored key = .ok e
  kept : l.keepsAll = true → ∀ {key e}, l.peek? key = some e → l'.peek? key = some e

/-- Whatever the layer may forget about a key, the store holds. -/
def Recalls {ε : Type} (stored : κ → Except ε (Option ν)) (l : CleanLayer κ ν) (key : κ) : Prop :=
  l.keepsAll = true ∨ ∀ e, l.peek? key = some e → stored key = .ok e

namespace Refreshed

variable {ε : Type} {stored : κ → Except ε (Option ν)} {l l' l'' : CleanLayer κ ν}

omit [Std.LawfulEqOrd κ] in
lemma refl (l : CleanLayer κ ν) : Refreshed stored l l :=
  ⟨rfl, fun h => .inl h, fun _ _ _ h => h⟩

omit [Std.LawfulEqOrd κ] in
lemma trans (h : Refreshed stored l l') (h' : Refreshed stored l' l'') :
    Refreshed stored l l'' where
  keepsAll := h'.keepsAll.trans h.keepsAll
  entry he := by
    rcases h'.entry he with he | hs
    · exact h.entry he
    · exact .inr hs
  kept hl _ _ he := h'.kept (h.keepsAll.trans hl) (h.kept hl he)

lemma get (l : CleanLayer κ ν) (key : κ) : Refreshed stored l (l.get key).2 where
  keepsAll := keepsAll_get l key
  entry he := .inl (by rwa [peek?_get] at he)
  kept _ _ _ he := by rwa [peek?_get]

lemma insert [DecidableEq κ] {key : κ} {value : Option ν} (hs : stored key = .ok value)
    (hl : l.peek? key = none) : Refreshed stored l (l.insert key value) where
  keepsAll := keepsAll_insert l key value
  entry he := by
    rcases peek?_insert_some he with ⟨rfl, rfl⟩ | ⟨_, he⟩
    · exact .inr hs
    · exact .inl he
  kept hk other e he := by
    rw [peek?_insert_of_keepsAll hk]
    split
    · rename_i heq
      rw [heq, hl] at he
      cases he
    · exact he

omit [Std.LawfulEqOrd κ] in
/-- What the layer or else the store says about a key stays the same. -/
lemma entry_or (h : Refreshed stored l l') {key : κ} (hr : l.Recalls stored key) :
    ((l'.peek? key).elim (stored key) .ok : Except ε (Option ν)) =
      (l.peek? key).elim (stored key) .ok := by
  cases he' : l'.peek? key with
  | some e' =>
    rcases h.entry he' with he | hs
    · rw [he]
    · cases he : l.peek? key with
      | none => exact hs.symm
      | some e =>
        rcases hr with hk | hr
        · rw [h.kept hk he] at he'
          exact congrArg Except.ok (Option.some.inj he').symm
        · exact hs.symm.trans (hr e he)
  | none =>
    cases he : l.peek? key with
    | none => rfl
    | some e =>
      rcases hr with hk | hr
      · rw [h.kept hk he] at he'
        cases he'
      · exact hr e he

omit [Std.LawfulEqOrd κ] in
lemma recalls (h : Refreshed stored l l') {key : κ} (hr : l.Recalls stored key) :
    l'.Recalls stored key := by
  rcases hr with hk | hr
  · exact .inl (h.keepsAll.trans hk)
  · refine .inr fun e he => ?_
    rcases h.entry he with he | hs
    · exact hr e he
    · exact hs

end Refreshed

end CleanLayer

/-! ## Answers of a cache -/

@[simp] lemma Lookup.known?_ofEntry {ν : Type} (entry : Option ν) :
    (Lookup.ofEntry entry).known? = some entry := by
  cases entry <;> rfl

lemma Cache.getClean_eq {κ ν : Type} [Ord κ] [Std.TransOrd κ] (c : Cache κ ν) (key : κ) :
    c.getClean key =
      ((c.clean.peek? key).elim .unknown .ofEntry, { c with clean := (c.clean.get key).2 }) := by
  simp only [Cache.getClean, CleanLayer.peek?]
  rcases c.clean.get key with ⟨_ | entry, clean⟩ <;> rfl

/-! ## Snapshots -/

/-- The entry that the dirty layer had, if any. -/
def Prior.peek? {ν : Type} : Prior ν → Option (Option ν)
  | .dirty value => some value
  | .clean => none

namespace Cache

variable {κ ν : Type} [Ord κ] [Std.TransOrd κ]

/-- Pending writes without those that a diff records. -/
def undo (dirty : Std.ExtTreeMap κ (Option ν)) (diff : Std.ExtTreeMap κ (Prior ν)) :
    Std.ExtTreeMap κ (Option ν) :=
  diff.foldl restore dirty

/-- The pending writes at each of the checkpoints that some diffs belong to, the latest first. -/
def snapshots (dirty : Std.ExtTreeMap κ (Option ν)) :
    List (Std.ExtTreeMap κ (Prior ν)) → List (Std.ExtTreeMap κ (Option ν))
  | [] => []
  | diff :: below => undo dirty diff :: snapshots (undo dirty diff) below

/-- The pending writes at each open checkpoint, the latest first. -/
def saved (c : Cache κ ν) : List (Std.ExtTreeMap κ (Option ν)) := snapshots c.dirty c.diffs

lemma length_snapshots (dirty : Std.ExtTreeMap κ (Option ν))
    (diffs : List (Std.ExtTreeMap κ (Prior ν))) :
    (snapshots dirty diffs).length = diffs.length := by
  induction diffs generalizing dirty with
  | nil => rfl
  | cons diff below ih => rw [snapshots, List.length_cons, ih, List.length_cons]

@[simp] lemma length_saved (c : Cache κ ν) : c.saved.length = c.depth :=
  length_snapshots c.dirty c.diffs

/-- Undoing nothing. -/
@[simp] lemma undo_empty (dirty : Std.ExtTreeMap κ (Option ν)) :
    undo dirty (∅ : Std.ExtTreeMap κ (Prior ν)) = dirty := by
  rw [undo, Std.ExtTreeMap.foldl_eq_foldl_toList, Std.ExtTreeMap.toList_eq_nil_iff.2 rfl,
    List.foldl_nil]

/-- Opening a checkpoint saves the pending writes. -/
@[simp] lemma saved_checkpoint (c : Cache κ ν) : c.checkpoint.saved = c.dirty :: c.saved := by
  simp only [saved, checkpoint, snapshots, undo_empty]

lemma peek?_prior (c : Cache κ ν) (key : κ) : (c.prior key).peek? = c.dirty[key]? := by
  simp only [prior]
  split
  · rename_i entry h
    rw [h, Prior.peek?]
  · rename_i h
    rw [h, Prior.peek?]

@[simp] lemma clean_write (c : Cache κ ν) (key : κ) (value : Option ν) :
    (c.write key value).clean = c.clean := by
  simp only [write, capture]
  split <;> rfl

@[simp] lemma dirty_write (c : Cache κ ν) (key : κ) (value : Option ν) :
    (c.write key value).dirty = c.dirty.insert key value := by
  simp only [write, capture]
  split <;> rfl

/-- Reverting puts the latest snapshot back. -/
lemma revert_of_saved {c : Cache κ ν} {latest : Std.ExtTreeMap κ (Option ν)}
    {below : List (Std.ExtTreeMap κ (Option ν))} (h : c.saved = latest :: below) :
    ∃ c', c.revert = .ok c' ∧ c'.clean = c.clean ∧ c'.dirty = latest ∧ c'.saved = below := by
  obtain ⟨clean, dirty, diffs⟩ := c
  rcases diffs with _ | ⟨diff, rest⟩
  · cases h
  · cases h
    exact ⟨_, rfl, rfl, rfl, rfl⟩

/-- Without a checkpoint there is nothing to commit or revert. -/
lemma diffs_of_saved_nil {c : Cache κ ν} (h : c.saved = []) : c.diffs = [] := by
  rw [← List.length_eq_zero_iff] at h ⊢
  rwa [← length_snapshots c.dirty c.diffs]

variable [Std.LawfulEqOrd κ] [DecidableEq κ]

lemma getElem?_restore (dirty : Std.ExtTreeMap κ (Option ν)) (key other : κ) (prior : Prior ν) :
    (restore dirty key prior)[other]? = if key = other then prior.peek? else dirty[other]? := by
  cases prior <;>
    simp only [restore, Prior.peek?, Std.ExtTreeMap.getElem?_insert,
      Std.ExtTreeMap.getElem?_erase, Std.LawfulEqOrd.compare_eq_iff_eq]

/-- Putting back entries of other keys is not seen. -/
lemma getElem?_foldl_restore_of_forall_ne {entries : List (κ × Prior ν)} {key : κ}
    (h : ∀ e ∈ entries, e.1 ≠ key) (dirty : Std.ExtTreeMap κ (Option ν)) :
    (entries.foldl (fun d e => restore d e.1 e.2) dirty)[key]? = dirty[key]? := by
  induction entries generalizing dirty with
  | nil => rfl
  | cons e rest ih =>
    rw [List.foldl_cons, ih fun e' he' => h e' (List.mem_cons_of_mem e he'), getElem?_restore,
      if_neg (h e List.mem_cons_self)]

/-- Of entries with distinct keys, each is put back. -/
lemma getElem?_foldl_restore_of_mem {entries : List (κ × Prior ν)} {key : κ} {prior : Prior ν}
    (hd : entries.Pairwise fun a b => ¬ compare a.1 b.1 = .eq) (h : (key, prior) ∈ entries)
    (dirty : Std.ExtTreeMap κ (Option ν)) :
    (entries.foldl (fun d e => restore d e.1 e.2) dirty)[key]? = prior.peek? := by
  induction entries generalizing dirty with
  | nil => cases h
  | cons e rest ih =>
    obtain ⟨hne, hd⟩ := List.pairwise_cons.1 hd
    rw [List.foldl_cons]
    rcases List.mem_cons.1 h with rfl | h
    · have hrest : ∀ e ∈ rest, e.1 ≠ key := fun e he heq =>
        hne e he (by rw [heq]; exact Std.ReflOrd.compare_self)
      rw [getElem?_foldl_restore_of_forall_ne hrest, getElem?_restore, if_pos rfl]
    · exact ih hd h _

/-- What pending writes say once a diff is undone. -/
lemma getElem?_undo (dirty : Std.ExtTreeMap κ (Option ν)) (diff : Std.ExtTreeMap κ (Prior ν))
    (key : κ) :
    (undo dirty diff)[key]? = (diff[key]?).elim dirty[key]? Prior.peek? := by
  rw [undo, Std.ExtTreeMap.foldl_eq_foldl_toList]
  cases h : diff[key]? with
  | some prior =>
    exact getElem?_foldl_restore_of_mem diff.distinct_keys_toList
      (Std.ExtTreeMap.mem_toList_iff_getElem?_eq_some.2 h) dirty
  | none =>
    refine getElem?_foldl_restore_of_forall_ne (fun e he heq => ?_) dirty
    have := Std.ExtTreeMap.mem_toList_iff_getElem?_eq_some.1 he
    rw [heq, h] at this
    cases this

/-- A recorded write is undone. -/
lemma undo_write (dirty : Std.ExtTreeMap κ (Option ν)) (diff : Std.ExtTreeMap κ (Prior ν))
    (key : κ) (value : Option ν) {prior : Prior ν} (hp : prior.peek? = dirty[key]?) :
    undo (dirty.insert key value) (diff.insertIfNew key prior) = undo dirty diff := by
  refine Std.ExtTreeMap.ext_getElem? fun other => ?_
  rw [getElem?_undo, getElem?_undo, Std.ExtTreeMap.getElem?_insertIfNew,
    Std.ExtTreeMap.getElem?_insert]
  simp only [Std.LawfulEqOrd.compare_eq_iff_eq]
  by_cases heq : key = other
  · subst heq
    by_cases hm : key ∈ diff
    · obtain ⟨p, h⟩ := Std.ExtTreeMap.mem_iff_isSome_getElem?.1 hm |> Option.isSome_iff_exists.1
      simp only [hm, h, not_true_eq_false, and_false, if_false, Option.elim_some]
    · have h : diff[key]? = none := Std.ExtTreeMap.getElem?_eq_none hm
      simp only [hm, h, not_false_eq_true, and_self, if_true, Option.elim_some, Option.elim_none,
        hp]
  · simp only [heq, false_and, if_false]

/-- Writing leaves what is saved. -/
@[simp] lemma saved_write (c : Cache κ ν) (key : κ) (value : Option ν) :
    (c.write key value).saved = c.saved := by
  obtain ⟨clean, dirty, diffs⟩ := c
  cases diffs with
  | nil => rfl
  | cons diff below =>
    simp only [saved, write, capture, snapshots]
    rw [undo_write dirty diff key value (peek?_prior _ key)]

/-- Entries added where there are none yet; of two entries for a key, the first is added. -/
lemma getElem?_foldl_insertIfNew (entries : List (κ × Prior ν))
    (parent : Std.ExtTreeMap κ (Prior ν)) (key : κ) :
    (entries.foldl (fun p e => p.insertIfNew e.1 e.2) parent)[key]? =
      parent[key]?.or ((entries.find? (decide <| ·.1 = key)).map Prod.snd) := by
  induction entries generalizing parent with
  | nil => exact (Option.or_none).symm
  | cons e rest ih =>
    rw [List.foldl_cons, ih, Std.ExtTreeMap.getElem?_insertIfNew, List.find?_cons]
    simp only [Std.LawfulEqOrd.compare_eq_iff_eq]
    by_cases heq : e.1 = key
    · subst heq
      by_cases hm : e.1 ∈ parent
      · simp [hm]
      · simp [hm]
    · simp [heq]

/-- A lookup is a search through the entries. -/
lemma find?_toList (diff : Std.ExtTreeMap κ (Prior ν)) (key : κ) :
    (diff.toList.find? (decide <| ·.1 = key)).map Prod.snd = diff[key]? := by
  cases h : diff.toList.find? (decide <| ·.1 = key) with
  | some e =>
    have heq : e.1 = key := by simpa using List.find?_some h
    rw [← heq, Option.map_some]
    exact (Std.ExtTreeMap.mem_toList_iff_getElem?_eq_some.1 (List.mem_of_find?_eq_some h)).symm
  | none =>
    cases hd : diff[key]? with
    | none => rfl
    | some p =>
      have hm := Std.ExtTreeMap.mem_toList_iff_getElem?_eq_some.2 hd
      have hne := List.find?_eq_none.1 h _ hm
      simp at hne

/-- A diff folded into the one below gives way to its entries. -/
lemma getElem?_fold (diff parent : Std.ExtTreeMap κ (Prior ν)) (key : κ) :
    (diff.foldl (fun p key prior => p.insertIfNew key prior) parent)[key]? =
      parent[key]?.or diff[key]? := by
  rw [Std.ExtTreeMap.foldl_eq_foldl_toList, getElem?_foldl_insertIfNew, find?_toList]

/-- Undoing two levels at once or one after the other. -/
lemma undo_fold (dirty : Std.ExtTreeMap κ (Option ν)) (diff parent : Std.ExtTreeMap κ (Prior ν)) :
    undo dirty (diff.foldl (fun p key prior => p.insertIfNew key prior) parent) =
      undo (undo dirty diff) parent := by
  refine Std.ExtTreeMap.ext_getElem? fun key => ?_
  rw [getElem?_undo, getElem?_undo, getElem?_undo, getElem?_fold]
  cases parent[key]? <;> rfl

/-- Committing drops the latest snapshot and changes nothing else. -/
lemma commit_of_saved {c : Cache κ ν} {latest : Std.ExtTreeMap κ (Option ν)}
    {below : List (Std.ExtTreeMap κ (Option ν))} (h : c.saved = latest :: below) :
    ∃ c', c.commit = .ok c' ∧ c'.clean = c.clean ∧ c'.dirty = c.dirty ∧ c'.saved = below := by
  obtain ⟨clean, dirty, diffs⟩ := c
  rcases diffs with _ | ⟨diff, _ | ⟨parent, rest⟩⟩
  · cases h
  · cases h
    exact ⟨_, rfl, rfl, rfl, rfl⟩
  · cases h
    refine ⟨_, rfl, rfl, rfl, ?_⟩
    simp only [saved, snapshots, undo_fold]

end Cache

end Evm
