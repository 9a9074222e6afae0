import Mathlib.Tactic
import Evm.Journal

/-!
# The journal and its snapshots

What a journal says about a transaction is which accounts and slots are warm, which accounts are
touched, and what transient storage holds: its `View`. The undo lists of the open checkpoints stand
for a view each (`Journal.saved`), and in terms of these the journal is a stack of copies, like the
caches: recording a change leaves the saved views alone, reverting puts the latest one back. The one
account whose touch survives a revert is left out of the views.
-/

namespace Evm.Journal

/-- What a journal says, apart from what is warm for the whole transaction. -/
structure View where
  warm : Address → Bool
  warmSlots : Slot → Bool
  /-- Touched accounts other than the one whose touch survives. -/
  touched : Address → Bool
  transient : Slot → Word

/-- What the journal says. -/
def view (j : Journal) : View where
  warm := j.warm.contains
  warmSlots := j.warmSlots.contains
  touched a := a != stickyTouch && j.touched.contains a
  transient s := j.transient.getD s 0

/-- The view without the changes of a level. -/
def View.undo (v : View) (level : Level) : View where
  warm a := !level.warmed.contains a && v.warm a
  warmSlots s := !level.warmedSlots.contains s && v.warmSlots s
  touched a := a != stickyTouch && !level.touched.contains a && v.touched a
  transient := level.transient.foldl (fun t e => Function.update t e.1 e.2) v.transient

/-- The views at the checkpoints that some levels belong to, the latest first. -/
def snapshots (v : View) : List Level → List View
  | [] => []
  | level :: below => v.undo level :: snapshots (v.undo level) below

/-- What the journal said at each open checkpoint, the latest first. -/
def saved (j : Journal) : List View := snapshots j.view j.levels

lemma length_saved (j : Journal) : j.saved.length = j.depth := by
  have hlength (v : View) (levels : List Level) : (snapshots v levels).length = levels.length := by
    induction levels generalizing v with
    | nil => rfl
    | cons level below ih => rw [snapshots, List.length_cons, ih, List.length_cons]
  exact hlength j.view j.levels

/-! ## Undoing -/

lemma contains_foldl_erase {κ : Type} [Ord κ] [Std.TransOrd κ] [Std.LawfulEqOrd κ] [DecidableEq κ]
    (l : List κ) (t : Std.ExtTreeSet κ) (a : κ) :
    (l.foldl (·.erase ·) t).contains a = (!l.contains a && t.contains a) := by
  induction l generalizing t with
  | nil => simp
  | cons b rest ih =>
    rw [List.foldl_cons, ih, Std.ExtTreeSet.contains_erase, List.contains_cons]
    by_cases h : a = b
    · simp [h]
    · have hb : (a == b) = false := beq_eq_false_iff_ne.2 h
      have hc : (compare b a != .eq) = true :=
        bne_iff_ne.2 fun e => h (Std.LawfulEqOrd.eq_of_compare e).symm
      rw [hb, hc, Bool.false_or, Bool.true_and]

lemma getD_setTransient (t : Std.ExtTreeMap Slot Word) (s s' : Slot) (value : Word) :
    (setTransient t s value).getD s' 0 = if s' = s then value else t.getD s' 0 := by
  have hs : compare s s' = .eq ↔ s' = s := by rw [Std.LawfulEqOrd.compare_eq_iff_eq, eq_comm]
  by_cases hv : value = 0 <;>
    simp only [setTransient, hv, if_true, if_false, Std.ExtTreeMap.getD_erase,
      Std.ExtTreeMap.getD_insert, hs]

lemma getD_foldl_setTransient (l : List (Slot × Word)) (t : Std.ExtTreeMap Slot Word) :
    (fun s => (l.foldl (fun t e => setTransient t e.1 e.2) t).getD s 0) =
      l.foldl (fun t e => Function.update t e.1 e.2) fun s => t.getD s 0 := by
  induction l generalizing t with
  | nil => rfl
  | cons e rest ih =>
    rw [List.foldl_cons, ih, List.foldl_cons]
    congr 1
    funext s
    rw [getD_setTransient, Function.update_apply]

/-- Undoing a level does to what the journal says what it does to the journal. -/
lemma view_undo (j : Journal) (level : Level) : (j.undo level).view = j.view.undo level := by
  have htouched : ∀ a, (a != stickyTouch && (j.undo level).touched.contains a) =
      (a != stickyTouch && !level.touched.contains a &&
        (a != stickyTouch && j.touched.contains a)) := by
    intro a
    simp only [undo, contains_foldl_erase]
    by_cases h : a = stickyTouch
    · simp [h]
    · have hb : (a != stickyTouch) = true := bne_iff_ne.2 h
      simp [hb]
  simp only [view, View.undo, htouched]
  congr 1
  · funext a
    exact contains_foldl_erase level.warmed j.warm a
  · funext s
    exact contains_foldl_erase level.warmedSlots j.warmSlots s
  · exact getD_foldl_setTransient level.transient j.transient

/-- Undoing two levels at once or one after the other. -/
lemma View.undo_append (v : View) (earlier later : Level) :
    v.undo (earlier.append later) = (v.undo later).undo earlier := by
  simp only [View.undo, Level.append, List.contains_append, List.foldl_append, View.mk.injEq,
    and_true]
  refine ⟨?_, ?_, ?_⟩
  · funext a
    rw [Bool.not_or, Bool.and_comm (!later.warmed.contains a), Bool.and_assoc]
  · funext s
    rw [Bool.not_or, Bool.and_comm (!later.warmedSlots.contains s), Bool.and_assoc]
  · funext a
    rw [Bool.not_or]
    cases a != stickyTouch <;> cases later.touched.contains a <;> cases earlier.touched.contains a <;>
      rfl

@[simp] lemma View.undo_touch_sticky (v : View) (level : Level) :
    v.undo { level with touched := stickyTouch :: level.touched } = v.undo level := by
  simp only [View.undo, List.contains_cons]
  congr 1
  funext a
  by_cases h : a = stickyTouch
  · simp [h]
  · rw [beq_eq_false_iff_ne.2 h, Bool.false_or]

/-! ## Changes -/

@[simp] lemma view_record (j : Journal) (change : Level → Level) : (j.record change).view = j.view := by
  simp only [record]
  split <;> rfl

@[simp] lemma isTouched_record (j : Journal) (change : Level → Level) (a : Address) :
    (j.record change).isTouched a = j.isTouched a := by
  simp only [record]
  split <;> rfl

@[simp] lemma isWarm_record (j : Journal) (change : Level → Level) (a : Address) :
    (j.record change).isWarm a = j.isWarm a := by
  simp only [record]
  split <;> rfl

@[simp] lemma isWarmSlot_record (j : Journal) (change : Level → Level) (s : Slot) :
    (j.record change).isWarmSlot s = j.isWarmSlot s := by
  simp only [record]
  split <;> rfl

@[simp] lemma tload_record (j : Journal) (change : Level → Level) (s : Slot) :
    (j.record change).tload s = j.tload s := by
  simp only [record]
  split <;> rfl

/-! ## First accesses -/

lemma contains_insert_eq {κ : Type} [Ord κ] [Std.TransOrd κ] [Std.LawfulEqOrd κ] [DecidableEq κ]
    (t : Std.ExtTreeSet κ) (a b : κ) : (t.insert a).contains b = (decide (b = a) || t.contains b) := by
  have heq : (compare a b == .eq) = decide (b = a) := by
    rw [beq_eq_decide, decide_eq_decide, Std.LawfulEqOrd.compare_eq_iff_eq, eq_comm]
  rw [Std.ExtTreeSet.contains_insert, heq]

lemma isWarm_access (j : Journal) (a b : Address) :
    (j.access a).2.isWarm b = (decide (b = a) || j.isWarm b) := by
  unfold access
  by_cases hw : j.isWarm a = true
  · rw [if_pos hw]
    by_cases hb : b = a
    · rw [hb, hw, Bool.or_true]
    · rw [decide_eq_false hb, Bool.false_or]
  · rw [if_neg hw, isWarm_record]
    simp only [isWarm, contains_insert_eq]
    rw [Bool.or_left_comm]

@[simp] lemma isWarmSlot_access (j : Journal) (a : Address) (s : Slot) :
    (j.access a).2.isWarmSlot s = j.isWarmSlot s := by
  unfold access
  split
  · rfl
  · exact isWarmSlot_record _ _ s

@[simp] lemma isTouched_access (j : Journal) (a b : Address) :
    (j.access a).2.isTouched b = j.isTouched b := by
  unfold access
  split
  · rfl
  · exact isTouched_record _ _ b

@[simp] lemma tload_access (j : Journal) (a : Address) (s : Slot) :
    (j.access a).2.tload s = j.tload s := by
  unfold access
  split
  · rfl
  · exact tload_record _ _ s

/-! ## What is saved -/

/-- A change that its record undoes leaves what is saved. -/
lemma saved_record {j j' : Journal} {change : Level → Level} (hl : j'.levels = j.levels)
    (h : ∀ level, j'.view.undo (change level) = j.view.undo level) :
    (j'.record change).saved = j.saved := by
  unfold saved
  rw [view_record]
  simp only [record, hl]
  cases hj : j.levels with
  | nil =>
    simp only [hl, hj]
    rfl
  | cons level below => simp only [snapshots, h]

/-- The journal has gone on from its open checkpoints: they would be reverted to the same, nothing
was warmed for the whole transaction, and the touch that survives reverts is not lost. -/
structure Continues (j j' : Journal) : Prop where
  saved : j'.saved = j.saved
  alwaysWarm : j'.alwaysWarm = j.alwaysWarm
  alwaysWarmSlots : j'.alwaysWarmSlots = j.alwaysWarmSlots
  sticky : j.isTouched stickyTouch = true → j'.isTouched stickyTouch = true

namespace Continues

variable {j j' j'' : Journal}

lemma refl (j : Journal) : j.Continues j := ⟨rfl, rfl, rfl, id⟩

lemma trans (h : j.Continues j') (h' : j'.Continues j'') : j.Continues j'' :=
  ⟨h'.saved.trans h.saved, h'.alwaysWarm.trans h.alwaysWarm,
    h'.alwaysWarmSlots.trans h.alwaysWarmSlots, fun ht => h'.sticky (h.sticky ht)⟩

/-- A recorded change. -/
lemma record {change : Level → Level} (hl : j'.levels = j.levels)
    (h : ∀ level, j'.view.undo (change level) = j.view.undo level)
    (hw : j'.alwaysWarm = j.alwaysWarm) (hs : j'.alwaysWarmSlots = j.alwaysWarmSlots)
    (ht : j.isTouched stickyTouch = true → j'.isTouched stickyTouch = true) :
    j.Continues (j'.record change) where
  saved := saved_record hl h
  alwaysWarm := by
    rw [← hw]
    simp only [Journal.record]
    split <;> rfl
  alwaysWarmSlots := by
    rw [← hs]
    simp only [Journal.record]
    split <;> rfl
  sticky hj := by
    rw [isTouched_record]
    exact ht hj

end Continues

/-- What a list and a set say once a new element is added to both. -/
lemma not_contains_cons_and_contains_insert {κ : Type} [Ord κ] [Std.TransOrd κ]
    [Std.LawfulEqOrd κ] [DecidableEq κ] {t : Std.ExtTreeSet κ} {a : κ} (ha : t.contains a = false)
    (l : List κ) (b : κ) :
    (!(a :: l).contains b && (t.insert a).contains b) = (!l.contains b && t.contains b) := by
  rw [List.contains_cons, contains_insert_eq]
  by_cases h : b = a
  · subst h
    simp [ha]
  · rw [beq_eq_false_iff_ne.2 h, decide_eq_false h, Bool.false_or, Bool.false_or]

lemma continues_access (j : Journal) (a : Address) : j.Continues (j.access a).2 := by
  unfold access
  split
  · exact .refl j
  · rename_i ha
    have hw : j.warm.contains a = false := by
      simp only [isWarm, Bool.or_eq_true, not_or, Bool.not_eq_true] at ha
      exact ha.2
    refine .record rfl (fun level => ?_) rfl rfl id
    simp only [View.undo, view, not_contains_cons_and_contains_insert hw]

lemma continues_accessSlot (j : Journal) (s : Slot) : j.Continues (j.accessSlot s).2 := by
  unfold accessSlot
  split
  · exact .refl j
  · rename_i hs
    have hw : j.warmSlots.contains s = false := by
      simp only [isWarmSlot, Bool.or_eq_true, not_or, Bool.not_eq_true] at hs
      exact hs.2
    refine .record rfl (fun level => ?_) rfl rfl id
    simp only [View.undo, view, not_contains_cons_and_contains_insert hw]

lemma continues_touch (j : Journal) (a : Address) : j.Continues (j.touch a) := by
  unfold touch
  split
  · exact .refl j
  · rename_i ha
    have hw : j.touched.contains a = false := Bool.eq_false_iff.2 ha
    refine .record rfl (fun level => ?_) rfl rfl fun h => ?_
    · simp only [View.undo, view, View.mk.injEq, true_and, and_true]
      funext b
      have hb := not_contains_cons_and_contains_insert hw level.touched b
      cases b != stickyTouch
      · rfl
      · simpa using hb
    · simp only [isTouched] at h ⊢
      rw [Std.ExtTreeSet.contains_insert, h, Bool.or_true]

/-- The journal has gone on from its open checkpoints, no touched account is lost, and transient
storage is the same. -/
structure Notes (j j' : Journal) : Prop where
  continues : j.Continues j'
  touched : ∀ a, j.isTouched a = true → j'.isTouched a = true
  transient : ∀ s, j'.tload s = j.tload s

lemma Notes.refl (j : Journal) : j.Notes j := ⟨.refl j, fun _ => id, fun _ => rfl⟩

lemma isTouched_touch (j : Journal) (a b : Address) :
    (j.touch a).isTouched b = (decide (b = a) || j.isTouched b) := by
  unfold touch
  by_cases ht : j.isTouched a = true
  · rw [if_pos ht]
    by_cases hb : b = a
    · rw [hb, ht, Bool.or_true]
    · rw [decide_eq_false hb, Bool.false_or]
  · rw [if_neg ht, isTouched_record]
    exact contains_insert_eq j.touched a b

lemma isTouched_touch_of_isTouched {j : Journal} {b : Address} (a : Address)
    (h : j.isTouched b = true) : (j.touch a).isTouched b = true := by
  rw [isTouched_touch, h, Bool.or_true]

lemma notes_access (j : Journal) (a : Address) : j.Notes (j.access a).2 :=
  ⟨j.continues_access a, fun b h => (isTouched_access j a b).trans h, tload_access j a⟩

lemma notes_accessSlot (j : Journal) (s : Slot) : j.Notes (j.accessSlot s).2 := by
  refine ⟨j.continues_accessSlot s, fun a h => ?_, fun other => ?_⟩ <;> unfold accessSlot
  · split
    · exact h
    · rwa [isTouched_record]
  · split
    · rfl
    · exact tload_record _ _ other

lemma notes_touch (j : Journal) (a : Address) : j.Notes (j.touch a) := by
  refine ⟨j.continues_touch a, fun _ => isTouched_touch_of_isTouched a, fun s => ?_⟩
  unfold touch
  split
  · rfl
  · exact tload_record _ _ s

@[simp] lemma isTouched_tstore (j : Journal) (s : Slot) (value : Word) (a : Address) :
    (j.tstore s value).isTouched a = j.isTouched a := by
  simp only [tstore]
  split
  · rfl
  · exact isTouched_record _ _ a

lemma continues_tstore (j : Journal) (s : Slot) (value : Word) : j.Continues (j.tstore s value) := by
  simp only [tstore]
  split
  · exact .refl j
  · refine .record rfl (fun level => ?_) rfl rfl id
    simp only [View.undo, view, List.foldl_cons, View.mk.injEq, true_and]
    congr 1
    funext s'
    rw [Function.update_apply]
    split
    · rename_i h
      rw [h]
      rfl
    · rename_i h
      exact (getD_setTransient j.transient s s' value).trans (if_neg h)

/-! ## Checkpoints -/

/-- Opening a checkpoint saves what the journal says. -/
lemma saved_checkpoint (j : Journal) : j.checkpoint.saved = j.view :: j.saved := by
  have h : j.view.undo {} = j.view := by
    simp only [View.undo, view]
    congr 1
    funext a
    cases a != stickyTouch <;> rfl
  change j.view.undo {} :: snapshots (j.view.undo {}) j.levels = _
  rw [h]
  rfl

/-- Committing drops the latest view and changes nothing else. -/
lemma commit?_of_saved {j : Journal} {latest : View} {below : List View}
    (h : j.saved = latest :: below) :
    ∃ j', j.commit? = some j' ∧ j'.view = j.view ∧ j'.saved = below ∧
      j'.alwaysWarm = j.alwaysWarm ∧ j'.alwaysWarmSlots = j.alwaysWarmSlots ∧
      j'.touched = j.touched := by
  obtain ⟨alwaysWarm, alwaysWarmSlots, warm, warmSlots, touched, transient, levels⟩ := j
  rcases levels with _ | ⟨level, _ | ⟨parent, rest⟩⟩ <;> cases h
  · exact ⟨_, rfl, rfl, rfl, rfl, rfl, rfl⟩
  · refine ⟨_, rfl, rfl, ?_, rfl, rfl, rfl⟩
    simp only [saved, snapshots, View.undo_append]
    rfl

lemma isTouched_undo_sticky (j : Journal) (level : Level) :
    (j.undo level).isTouched stickyTouch = j.isTouched stickyTouch := by
  simp [isTouched, undo, contains_foldl_erase]

/-- Reverting puts the latest view back. -/
lemma revert?_of_saved {j : Journal} {latest : View} {below : List View}
    (h : j.saved = latest :: below) :
    ∃ j', j.revert? = some j' ∧ j'.view = latest ∧ j'.saved = below ∧
      j'.alwaysWarm = j.alwaysWarm ∧ j'.alwaysWarmSlots = j.alwaysWarmSlots ∧
      j'.isTouched stickyTouch = j.isTouched stickyTouch := by
  obtain ⟨alwaysWarm, alwaysWarmSlots, warm, warmSlots, touched, transient, levels⟩ := j
  rcases levels with _ | ⟨level, rest⟩ <;> cases h
  have hview := view_undo ⟨alwaysWarm, alwaysWarmSlots, warm, warmSlots, touched, transient, rest⟩
    level
  have hsticky := isTouched_undo_sticky
    ⟨alwaysWarm, alwaysWarmSlots, warm, warmSlots, touched, transient, rest⟩ level
  refine ⟨_, rfl, ?_⟩
  split
  · refine ⟨by rw [view_record, hview]; rfl, ?_, ?_, ?_, by rw [isTouched_record, hsticky]; rfl⟩
    · rw [saved_record rfl fun level => View.undo_touch_sticky _ level, saved, hview]
      rfl
    · cases rest <;> rfl
    · cases rest <;> rfl
  · exact ⟨hview, by rw [saved, hview]; rfl, rfl, rfl, hsticky⟩

/-- Committing keeps what the journal says. -/
lemma Continues.commit? {j j' : Journal} (h : j.checkpoint.Continues j') :
    ∃ j'', j'.commit? = some j'' ∧ j.Continues j'' ∧ j''.view = j'.view := by
  obtain ⟨j'', hrun, hview, hsaved, hwarm, hslots, htouched⟩ :=
    commit?_of_saved (h.saved.trans (saved_checkpoint j))
  refine ⟨j'', hrun, ⟨hsaved, hwarm.trans h.alwaysWarm, hslots.trans h.alwaysWarmSlots, ?_⟩, hview⟩
  intro hs
  rw [isTouched, htouched]
  exact h.sticky hs

/-- Reverting puts back what the journal said. -/
lemma Continues.revert? {j j' : Journal} (h : j.checkpoint.Continues j') :
    ∃ j'', j'.revert? = some j'' ∧ j.Continues j'' ∧ j''.view = j.view := by
  obtain ⟨j'', hrun, hview, hsaved, hwarm, hslots, hsticky⟩ :=
    revert?_of_saved (h.saved.trans (saved_checkpoint j))
  exact ⟨j'', hrun, ⟨hsaved, hwarm.trans h.alwaysWarm, hslots.trans h.alwaysWarmSlots,
    fun hs => hsticky.trans (h.sticky hs)⟩, hview⟩

end Evm.Journal
