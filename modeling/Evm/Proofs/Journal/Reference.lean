import Evm.Proofs.Journal

/-!
# The journal as a stack of copies

A journal that copies everything when a checkpoint is opened, drops the copy when it is committed
and puts it back when it is reverted. Two things outlast a revert: what is warm for the whole
transaction, and one touch. `Journal.serve` answers as this journal does
(`Journal.serveAll_eq_reference`): every request keeps it so that the copies are what the undo lists
stand for, up to what is warm for the whole transaction.
-/

namespace Evm.Journal

/-! ## Requests -/

/-- What a journal can be asked for. -/
inductive Request where
  | access (a : Address)
  | accessSlot (s : Slot)
  | keepWarm (a : Address)
  | keepWarmSlot (s : Slot)
  | touch (a : Address)
  | tstore (s : Slot) (value : Word)
  | tload (s : Slot)
  | isWarm (a : Address)
  | isWarmSlot (s : Slot)
  | isTouched (a : Address)
  | touchedList
  | depth
  | checkpoint
  | commit
  | revert
  | clear

/-- An answer of a journal. -/
inductive Reply where
  | done
  | flag (value : Bool)
  | word (value : Word)
  | accounts (addresses : List Address)
  | count (n : Nat)
  deriving DecidableEq

/-- Closes a checkpoint, and tells whether there was one. -/
def closing (close? : Journal → Option Journal) (j : Journal) : Reply × Journal :=
  match close? j with
  | some j => (.flag true, j)
  | none => (.flag false, j)

/-- Answers a request. -/
def serve : Request → Journal → Reply × Journal
  | .access a, j => (.flag (j.access a).1, (j.access a).2)
  | .accessSlot s, j => (.flag (j.accessSlot s).1, (j.accessSlot s).2)
  | .keepWarm a, j => (.done, j.keepWarm a)
  | .keepWarmSlot s, j => (.done, j.keepWarmSlot s)
  | .touch a, j => (.done, j.touch a)
  | .tstore s value, j => (.done, j.tstore s value)
  | .tload s, j => (.word (j.tload s), j)
  | .isWarm a, j => (.flag (j.isWarm a), j)
  | .isWarmSlot s, j => (.flag (j.isWarmSlot s), j)
  | .isTouched a, j => (.flag (j.isTouched a), j)
  | .touchedList, j => (.accounts j.touchedList, j)
  | .depth, j => (.count j.depth, j)
  | .checkpoint, j => (.done, j.checkpoint)
  | .commit, j => j.closing commit?
  | .revert, j => j.closing revert?
  | .clear, _ => (.done, empty)

/-- Answers requests one after the other. -/
def serveAll : List Request → Journal → List Reply × Journal
  | [], j => ([], j)
  | request :: rest, j =>
    let (reply, j) := j.serve request
    let (replies, j) := serveAll rest j
    (reply :: replies, j)

/-! ## The reference -/

/-- What is copied when a checkpoint is opened. -/
structure Copy where
  /-- All warm accounts. -/
  warm : Std.ExtTreeSet Address := ∅
  /-- All warm slots. -/
  warmSlots : Std.ExtTreeSet Slot := ∅
  touched : Std.ExtTreeSet Address := ∅
  transient : Slot → Word := fun _ => 0

/-- What has been recorded, and the copies at the open checkpoints, the latest first. -/
structure Reference where
  /-- Accounts that are warm for the whole transaction. -/
  permanent : Std.ExtTreeSet Address := ∅
  /-- Slots that are warm for the whole transaction. -/
  permanentSlots : Std.ExtTreeSet Slot := ∅
  current : Copy := {}
  copies : List Copy := []

namespace Reference

/-- Changes what has been recorded. -/
def change (f : Copy → Copy) (r : Reference) : Reference := { r with current := f r.current }

/-- The copy, with what outlasts a revert. -/
def reinstated (r : Reference) (copy : Copy) : Copy :=
  { copy with
    warm := copy.warm ∪ r.permanent
    warmSlots := copy.warmSlots ∪ r.permanentSlots
    touched :=
      if r.current.touched.contains stickyTouch then copy.touched.insert stickyTouch
      else copy.touched }

/-- Closes a checkpoint, given the latest copy and those below it, and tells whether there was
one. -/
def closing (close : Copy → List Copy → Reference) (r : Reference) : Reply × Reference :=
  match r.copies with
  | [] => (.flag false, r)
  | latest :: below => (.flag true, close latest below)

/-- Answers a request. -/
def serve : Request → Reference → Reply × Reference
  | .access a, r =>
    (.flag !r.current.warm.contains a, r.change fun c => { c with warm := c.warm.insert a })
  | .accessSlot s, r =>
    (.flag !r.current.warmSlots.contains s,
      r.change fun c => { c with warmSlots := c.warmSlots.insert s })
  | .keepWarm a, r =>
    (.done, { r.change fun c => { c with warm := c.warm.insert a } with
      permanent := r.permanent.insert a })
  | .keepWarmSlot s, r =>
    (.done, { r.change fun c => { c with warmSlots := c.warmSlots.insert s } with
      permanentSlots := r.permanentSlots.insert s })
  | .touch a, r => (.done, r.change fun c => { c with touched := c.touched.insert a })
  | .tstore s value, r =>
    (.done, r.change fun c => { c with transient := Function.update c.transient s value })
  | .tload s, r => (.word (r.current.transient s), r)
  | .isWarm a, r => (.flag (r.current.warm.contains a), r)
  | .isWarmSlot s, r => (.flag (r.current.warmSlots.contains s), r)
  | .isTouched a, r => (.flag (r.current.touched.contains a), r)
  | .touchedList, r => (.accounts r.current.touched.toList, r)
  | .depth, r => (.count r.copies.length, r)
  | .checkpoint, r => (.done, { r with copies := r.current :: r.copies })
  | .commit, r => r.closing fun _ below => { r with copies := below }
  | .revert, r =>
    r.closing fun latest below => { r with current := r.reinstated latest, copies := below }
  | .clear, _ => (.done, {})

/-- Answers requests one after the other. -/
def serveAll : List Request → Reference → List Reply × Reference
  | [], r => ([], r)
  | request :: rest, r =>
    let (reply, r) := r.serve request
    let (replies, r) := serveAll rest r
    (reply :: replies, r)

end Reference

/-! ## What a request leaves alone -/

section

variable (j : Journal)

@[simp] lemma isWarm_accessSlot (s : Slot) (a : Address) :
    (j.accessSlot s).2.isWarm a = j.isWarm a := by
  unfold accessSlot
  split
  · rfl
  · exact isWarm_record _ _ a

@[simp] lemma isTouched_accessSlot (s : Slot) (a : Address) :
    (j.accessSlot s).2.isTouched a = j.isTouched a := by
  unfold accessSlot
  split
  · rfl
  · exact isTouched_record _ _ a

@[simp] lemma isWarm_touch (a b : Address) : (j.touch a).isWarm b = j.isWarm b := by
  unfold touch
  split
  · rfl
  · exact isWarm_record _ _ b

@[simp] lemma isWarmSlot_touch (a : Address) (s : Slot) :
    (j.touch a).isWarmSlot s = j.isWarmSlot s := by
  unfold touch
  split
  · rfl
  · exact isWarmSlot_record _ _ s

@[simp] lemma isWarm_tstore (s : Slot) (value : Word) (a : Address) :
    (j.tstore s value).isWarm a = j.isWarm a := by
  simp only [tstore]
  split
  · rfl
  · exact isWarm_record _ _ a

@[simp] lemma isWarmSlot_tstore (s s' : Slot) (value : Word) :
    (j.tstore s value).isWarmSlot s' = j.isWarmSlot s' := by
  simp only [tstore]
  split
  · rfl
  · exact isWarmSlot_record _ _ s'

/-! ## What a request changes -/

lemma access_fst (a : Address) : (j.access a).1 = !j.isWarm a := by
  unfold access
  cases j.isWarm a <;> rfl

lemma accessSlot_fst (s : Slot) : (j.accessSlot s).1 = !j.isWarmSlot s := by
  unfold accessSlot
  cases j.isWarmSlot s <;> rfl

lemma isWarmSlot_accessSlot (s s' : Slot) :
    (j.accessSlot s).2.isWarmSlot s' = (decide (s' = s) || j.isWarmSlot s') := by
  unfold accessSlot
  by_cases hw : j.isWarmSlot s = true
  · rw [if_pos hw]
    by_cases hs : s' = s
    · rw [hs, hw, Bool.or_true]
    · rw [decide_eq_false hs, Bool.false_or]
  · rw [if_neg hw, isWarmSlot_record]
    simp only [isWarmSlot, contains_insert_eq]
    rw [Bool.or_left_comm]

lemma isWarm_keepWarm (a b : Address) :
    (j.keepWarm a).isWarm b = (decide (b = a) || j.isWarm b) := by
  simp only [keepWarm, isWarm, contains_insert_eq, Bool.or_assoc]

lemma isWarmSlot_keepWarmSlot (s s' : Slot) :
    (j.keepWarmSlot s).isWarmSlot s' = (decide (s' = s) || j.isWarmSlot s') := by
  simp only [keepWarmSlot, isWarmSlot, contains_insert_eq, Bool.or_assoc]

lemma tload_tstore (s s' : Slot) (value : Word) :
    (j.tstore s value).tload s' = if s' = s then value else j.tload s' := by
  simp only [tstore]
  by_cases hsame : j.tload s = value
  · rw [if_pos hsame]
    split
    · rename_i heq
      rw [heq, hsame]
    · rfl
  · rw [if_neg hsame, tload_record]
    exact getD_setTransient j.transient s s' value

end

/-! ## Copies and views -/

/-- Up to what is warm for the whole transaction, the copy is of a journal that said so. -/
structure Copy.Shows (always : Std.ExtTreeSet Address) (alwaysSlots : Std.ExtTreeSet Slot)
    (copy : Copy) (v : View) : Prop where
  warm : ∀ a, (always.contains a || copy.warm.contains a) = (always.contains a || v.warm a)
  warmSlots : ∀ s, (alwaysSlots.contains s || copy.warmSlots.contains s) =
    (alwaysSlots.contains s || v.warmSlots s)
  touched : ∀ a, (a != stickyTouch && copy.touched.contains a) = v.touched a
  transient : copy.transient = v.transient

namespace Copy.Shows

variable {always : Std.ExtTreeSet Address} {alwaysSlots : Std.ExtTreeSet Slot} {copy : Copy}
  {v : View}

lemma keepWarm (h : copy.Shows always alwaysSlots v) (a : Address) :
    copy.Shows (always.insert a) alwaysSlots v :=
  { h with
    warm := fun b => by rw [contains_insert_eq, Bool.or_assoc, h.warm, Bool.or_assoc] }

lemma keepWarmSlot (h : copy.Shows always alwaysSlots v) (s : Slot) :
    copy.Shows always (alwaysSlots.insert s) v :=
  { h with
    warmSlots := fun s' => by rw [contains_insert_eq, Bool.or_assoc, h.warmSlots, Bool.or_assoc] }

end Copy.Shows

namespace Reference

/-- What has been recorded is what the journal says, and the copies are what its undo lists stand
for. A copy in which the touch that survives is missing does not bring it back. -/
structure Depicts (r : Reference) (j : Journal) : Prop where
  permanent : r.permanent = j.alwaysWarm
  permanentSlots : r.permanentSlots = j.alwaysWarmSlots
  warm : ∀ a, r.current.warm.contains a = j.isWarm a
  warmSlots : ∀ s, r.current.warmSlots.contains s = j.isWarmSlot s
  touched : ∀ a, r.current.touched.contains a = j.isTouched a
  transient : ∀ s, r.current.transient s = j.tload s
  copies : List.Forall₂ (Copy.Shows j.alwaysWarm j.alwaysWarmSlots) r.copies j.saved
  sticky : ∀ copy ∈ r.copies, copy.touched.contains stickyTouch = true →
    j.isTouched stickyTouch = true

namespace Depicts

variable {r : Reference} {j j' : Journal}

lemma empty : Depicts {} Journal.empty :=
  ⟨rfl, rfl, fun _ => rfl, fun _ => rfl, fun _ => rfl, fun _ => rfl, .nil, nofun⟩

lemma touchedList (h : r.Depicts j) : j.touchedList = r.current.touched.toList :=
  congrArg Std.ExtTreeSet.toList (Std.ExtTreeSet.ext_contains fun a => (h.touched a).symm)

lemma depth (h : r.Depicts j) : j.depth = r.copies.length := by
  rw [← length_saved]
  exact h.copies.length_eq.symm

/-- The copy of what has been recorded is of what the journal says. -/
lemma shows (h : r.Depicts j) : r.current.Shows j.alwaysWarm j.alwaysWarmSlots j.view where
  warm a := by
    rw [h.warm, isWarm, ← Bool.or_assoc, Bool.or_self]
    rfl
  warmSlots s := by
    rw [h.warmSlots, isWarmSlot, ← Bool.or_assoc, Bool.or_self]
    rfl
  touched a := by
    rw [h.touched]
    rfl
  transient := funext h.transient

/-! ## Requests, one by one -/

/-- A change that leaves what is saved. -/
lemma changed (h : r.Depicts j) (hj : j.Continues j') {f : Copy → Copy}
    (warm : ∀ a, (f r.current).warm.contains a = j'.isWarm a)
    (warmSlots : ∀ s, (f r.current).warmSlots.contains s = j'.isWarmSlot s)
    (touched : ∀ a, (f r.current).touched.contains a = j'.isTouched a)
    (transient : ∀ s, (f r.current).transient s = j'.tload s) : (r.change f).Depicts j' where
  permanent := h.permanent.trans hj.alwaysWarm.symm
  permanentSlots := h.permanentSlots.trans hj.alwaysWarmSlots.symm
  warm := warm
  warmSlots := warmSlots
  touched := touched
  transient := transient
  copies := by
    rw [hj.alwaysWarm, hj.alwaysWarmSlots, hj.saved]
    exact h.copies
  sticky copy hmem htouched := hj.sticky (h.sticky copy hmem htouched)

lemma access (h : r.Depicts j) (a : Address) :
    (r.change fun c => { c with warm := c.warm.insert a }).Depicts (j.access a).2 :=
  h.changed (j.continues_access a) (fun b => by rw [contains_insert_eq, isWarm_access, h.warm])
    (fun s => (h.warmSlots s).trans (isWarmSlot_access j a s).symm)
    (fun b => (h.touched b).trans (isTouched_access j a b).symm)
    fun s => (h.transient s).trans (tload_access j a s).symm

lemma accessSlot (h : r.Depicts j) (s : Slot) :
    (r.change fun c => { c with warmSlots := c.warmSlots.insert s }).Depicts (j.accessSlot s).2 :=
  h.changed (j.continues_accessSlot s) (fun a => (h.warm a).trans (isWarm_accessSlot j s a).symm)
    (fun s' => by rw [contains_insert_eq, isWarmSlot_accessSlot, h.warmSlots])
    (fun a => (h.touched a).trans (isTouched_accessSlot j s a).symm)
    fun s' => (h.transient s').trans ((j.notes_accessSlot s).transient s').symm

lemma touch (h : r.Depicts j) (a : Address) :
    (r.change fun c => { c with touched := c.touched.insert a }).Depicts (j.touch a) :=
  h.changed (j.continues_touch a) (fun b => (h.warm b).trans (isWarm_touch j a b).symm)
    (fun s => (h.warmSlots s).trans (isWarmSlot_touch j a s).symm)
    (fun b => by rw [contains_insert_eq, isTouched_touch, h.touched])
    fun s => (h.transient s).trans ((j.notes_touch a).transient s).symm

lemma tstore (h : r.Depicts j) (s : Slot) (value : Word) :
    (r.change fun c => { c with transient := Function.update c.transient s value }).Depicts
      (j.tstore s value) :=
  h.changed (j.continues_tstore s value)
    (fun a => (h.warm a).trans (isWarm_tstore j s value a).symm)
    (fun s' => (h.warmSlots s').trans (isWarmSlot_tstore j s s' value).symm)
    (fun a => (h.touched a).trans (isTouched_tstore j s value a).symm)
    fun s' => by
      dsimp only
      rw [Function.update_apply, tload_tstore, h.transient]

lemma keepWarm (h : r.Depicts j) (a : Address) :
    Depicts { r.change fun c => { c with warm := c.warm.insert a } with
      permanent := r.permanent.insert a } (j.keepWarm a) where
  permanent := congrArg (·.insert a) h.permanent
  permanentSlots := h.permanentSlots
  warm b := by
    rw [isWarm_keepWarm, ← h.warm]
    exact contains_insert_eq r.current.warm a b
  warmSlots := h.warmSlots
  touched := h.touched
  transient := h.transient
  copies := h.copies.imp fun _ _ hshows => hshows.keepWarm a
  sticky := h.sticky

lemma keepWarmSlot (h : r.Depicts j) (s : Slot) :
    Depicts { r.change fun c => { c with warmSlots := c.warmSlots.insert s } with
      permanentSlots := r.permanentSlots.insert s } (j.keepWarmSlot s) where
  permanent := h.permanent
  permanentSlots := congrArg (·.insert s) h.permanentSlots
  warm := h.warm
  warmSlots s' := by
    rw [isWarmSlot_keepWarmSlot, ← h.warmSlots]
    exact contains_insert_eq r.current.warmSlots s s'
  touched := h.touched
  transient := h.transient
  copies := h.copies.imp fun _ _ hshows => hshows.keepWarmSlot s
  sticky := h.sticky

lemma checkpoint (h : r.Depicts j) :
    Depicts { r with copies := r.current :: r.copies } j.checkpoint where
  permanent := h.permanent
  permanentSlots := h.permanentSlots
  warm := h.warm
  warmSlots := h.warmSlots
  touched := h.touched
  transient := h.transient
  copies := by
    rw [saved_checkpoint]
    exact .cons h.shows h.copies
  sticky copy hmem htouched := by
    rcases List.mem_cons.1 hmem with rfl | hmem
    · exact (h.touched stickyTouch).symm.trans htouched
    · exact h.sticky copy hmem htouched

/-- Without a checkpoint there is nothing to close. -/
lemma levels_eq_nil (h : r.Depicts j) (hcopies : r.copies = []) : j.levels = [] := by
  have hdepth := h.depth
  rw [hcopies] at hdepth
  exact List.length_eq_zero_iff.1 hdepth

/-- With a checkpoint there is something saved that the latest copy shows. -/
lemma exists_saved (h : r.Depicts j) {copy : Copy} {below : List Copy}
    (hcopies : r.copies = copy :: below) :
    ∃ latest saved, j.saved = latest :: saved ∧
      copy.Shows j.alwaysWarm j.alwaysWarmSlots latest ∧
      List.Forall₂ (Copy.Shows j.alwaysWarm j.alwaysWarmSlots) below saved := by
  have hshows := h.copies
  rw [hcopies] at hshows
  obtain ⟨latest, saved, hlatest, hsaved, heq⟩ := List.forall₂_cons_left_iff.1 hshows
  exact ⟨latest, saved, heq, hlatest, hsaved⟩

/-- Closing the latest checkpoint leaves those below it as they are. -/
lemma closed (h : r.Depicts j) {copy : Copy} {below : List Copy} (hcopies : r.copies = copy :: below)
    (halways : j'.alwaysWarm = j.alwaysWarm) (halwaysSlots : j'.alwaysWarmSlots = j.alwaysWarmSlots)
    (hbelow : List.Forall₂ (Copy.Shows j.alwaysWarm j.alwaysWarmSlots) below j'.saved)
    (hsticky : j'.isTouched stickyTouch = j.isTouched stickyTouch) {current : Copy}
    (warm : ∀ a, current.warm.contains a = j'.isWarm a)
    (warmSlots : ∀ s, current.warmSlots.contains s = j'.isWarmSlot s)
    (touched : ∀ a, current.touched.contains a = j'.isTouched a)
    (transient : ∀ s, current.transient s = j'.tload s) :
    Depicts { r with current, copies := below } j' where
  permanent := h.permanent.trans halways.symm
  permanentSlots := h.permanentSlots.trans halwaysSlots.symm
  warm := warm
  warmSlots := warmSlots
  touched := touched
  transient := transient
  copies := by
    rw [halways, halwaysSlots]
    exact hbelow
  sticky copy hmem hcopy := by
    rw [hsticky]
    exact h.sticky copy (hcopies ▸ List.mem_cons_of_mem _ hmem) hcopy

/-- The latest checkpoint is committed. -/
lemma commit (h : r.Depicts j) {copy : Copy} {below : List Copy}
    (hcopies : r.copies = copy :: below) :
    ∃ j', j.commit? = some j' ∧ Depicts { r with copies := below } j' := by
  obtain ⟨latest, saved, heq, -, hbelow⟩ := h.exists_saved hcopies
  obtain ⟨j', hrun, hview, hsaved, halways, halwaysSlots, htouched⟩ := commit?_of_saved heq
  have hsticky : j'.isTouched stickyTouch = j.isTouched stickyTouch :=
    congrArg (·.contains stickyTouch) htouched
  refine ⟨j', hrun, h.closed hcopies halways halwaysSlots (hsaved ▸ hbelow) hsticky (fun a => ?_)
    (fun s => ?_) (fun a => ?_) fun s => ?_⟩
  · rw [isWarm, halways]
    exact (h.warm a).trans (congrArg (j.alwaysWarm.contains a || View.warm · a) hview.symm)
  · rw [isWarmSlot, halwaysSlots]
    exact (h.warmSlots s).trans
      (congrArg (j.alwaysWarmSlots.contains s || View.warmSlots · s) hview.symm)
  · exact (h.touched a).trans (congrArg (·.contains a) htouched.symm)
  · exact (h.transient s).trans (congrArg (View.transient · s) hview.symm)

/-- What is touched once a copy is put back. -/
lemma touched_reinstated (r : Reference) (copy : Copy) (a : Address) :
    (r.reinstated copy).touched.contains a =
      (decide (a = stickyTouch) && r.current.touched.contains stickyTouch ||
        copy.touched.contains a) := by
  unfold reinstated
  dsimp only
  split
  · rename_i hsticky
    rw [contains_insert_eq, hsticky, Bool.and_true]
  · rename_i hsticky
    rw [Bool.eq_false_of_not_eq_true hsticky, Bool.and_false, Bool.false_or]

/-- The latest checkpoint is reverted. -/
lemma revert (h : r.Depicts j) {copy : Copy} {below : List Copy}
    (hcopies : r.copies = copy :: below) :
    ∃ j', j.revert? = some j' ∧
      Depicts { r with current := r.reinstated copy, copies := below } j' := by
  obtain ⟨latest, saved, heq, hlatest, hbelow⟩ := h.exists_saved hcopies
  obtain ⟨j', hrun, hview, hsaved, halways, halwaysSlots, hsticky⟩ := revert?_of_saved heq
  refine ⟨j', hrun, h.closed hcopies halways halwaysSlots (hsaved ▸ hbelow) hsticky (fun a => ?_)
    (fun s => ?_) (fun a => ?_) fun s => ?_⟩
  · have hwarm : j'.warm.contains a = latest.warm a := congrArg (View.warm · a) hview
    rw [isWarm, halways, hwarm, ← hlatest.warm, ← h.permanent, Bool.or_comm]
    exact Std.ExtTreeSet.contains_union
  · have hwarm : j'.warmSlots.contains s = latest.warmSlots s := congrArg (View.warmSlots · s) hview
    rw [isWarmSlot, halwaysSlots, hwarm, ← hlatest.warmSlots, ← h.permanentSlots, Bool.or_comm]
    exact Std.ExtTreeSet.contains_union
  · have htouched : (a != stickyTouch && copy.touched.contains a) =
        (a != stickyTouch && j'.isTouched a) :=
      (hlatest.touched a).trans (congrArg (View.touched · a) hview.symm)
    rw [touched_reinstated, h.touched]
    by_cases ha : a = stickyTouch
    · -- The copy has the touch that survives only if it has survived.
      have hkept := h.sticky copy (hcopies ▸ List.mem_cons_self)
      rw [ha, hsticky]
      cases hcopy : copy.touched.contains stickyTouch with
      | true => rw [hkept hcopy, Bool.or_true]
      | false => simp
    · rw [bne_iff_ne.2 ha, Bool.true_and, Bool.true_and] at htouched
      rw [decide_eq_false ha, Bool.false_and, Bool.false_or, htouched]
  · exact (congrFun hlatest.transient s).trans (congrArg (View.transient · s) hview.symm)

/-- A checkpoint is closed alike if that is so where there is one. -/
lemma closing (h : r.Depicts j) {close? : Journal → Option Journal}
    {close : Copy → List Copy → Reference} (hnone : j.levels = [] → close? j = none)
    (hsome : ∀ latest below, r.copies = latest :: below →
      ∃ j', close? j = some j' ∧ (close latest below).Depicts j') :
    (j.closing close?).1 = (r.closing close).1 ∧
      (r.closing close).2.Depicts (j.closing close?).2 := by
  unfold Journal.closing Reference.closing
  cases hcopies : r.copies with
  | nil =>
    rw [hnone (h.levels_eq_nil hcopies)]
    exact ⟨rfl, h⟩
  | cons latest below =>
    obtain ⟨j', hrun, hj'⟩ := hsome latest below hcopies
    rw [hrun]
    exact ⟨rfl, hj'⟩

/-- A request is answered alike. -/
theorem serve (h : r.Depicts j) (request : Request) :
    (j.serve request).1 = (r.serve request).1 ∧
      (r.serve request).2.Depicts (j.serve request).2 := by
  cases request with
  | access a => exact ⟨congrArg Reply.flag (by rw [access_fst, h.warm]), h.access a⟩
  | accessSlot s =>
    exact ⟨congrArg Reply.flag (by rw [accessSlot_fst, h.warmSlots]), h.accessSlot s⟩
  | keepWarm a => exact ⟨rfl, h.keepWarm a⟩
  | keepWarmSlot s => exact ⟨rfl, h.keepWarmSlot s⟩
  | touch a => exact ⟨rfl, h.touch a⟩
  | tstore s value => exact ⟨rfl, h.tstore s value⟩
  | tload s => exact ⟨congrArg Reply.word (h.transient s).symm, h⟩
  | isWarm a => exact ⟨congrArg Reply.flag (h.warm a).symm, h⟩
  | isWarmSlot s => exact ⟨congrArg Reply.flag (h.warmSlots s).symm, h⟩
  | isTouched a => exact ⟨congrArg Reply.flag (h.touched a).symm, h⟩
  | touchedList => exact ⟨congrArg Reply.accounts h.touchedList, h⟩
  | depth => exact ⟨congrArg Reply.count h.depth, h⟩
  | checkpoint => exact ⟨rfl, h.checkpoint⟩
  | commit =>
    exact h.closing (fun hlevels => by rw [commit?, hlevels]) fun _ _ hcopies => h.commit hcopies
  | revert =>
    exact h.closing (fun hlevels => by rw [revert?, hlevels]) fun _ _ hcopies => h.revert hcopies
  | clear => exact ⟨rfl, .empty⟩

/-- Requests are answered alike, one after the other. -/
lemma serveAll (h : r.Depicts j) (requests : List Request) :
    (j.serveAll requests).1 = (r.serveAll requests).1 ∧
      (r.serveAll requests).2.Depicts (j.serveAll requests).2 := by
  induction requests generalizing r j with
  | nil => exact ⟨rfl, h⟩
  | cons request rest ih =>
    obtain ⟨hreply, hnext⟩ := h.serve request
    obtain ⟨hreplies, hend⟩ := ih hnext
    exact ⟨congrArg₂ List.cons hreply hreplies, hend⟩

end Depicts

end Reference

/-- The journal answers every sequence of requests as one does that copies everything at each
checkpoint, drops the copy at a commit and puts it back at a revert, where what is warm for the
whole transaction and the touch that survives outlast the revert. -/
theorem serveAll_eq_reference (requests : List Request) :
    (serveAll requests empty).1 = (Reference.serveAll requests {}).1 :=
  (Reference.Depicts.empty.serveAll requests).1

/-- What was warmed in a checkpoint before it was to stay warm stays warm. -/
example : (serveAll [.checkpoint, .access 1, .access 2, .keepWarm 1, .touch 2, .touch stickyTouch,
    .revert, .isWarm 1, .isWarm 2, .touchedList] empty).1 =
    [.done, .flag true, .flag true, .done, .done, .done, .flag true, .flag true, .flag false,
      .accounts [stickyTouch]] := by
  decide

end Evm.Journal
