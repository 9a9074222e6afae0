import Std.Data.ExtTreeSet
import Std.Data.ExtTreeMap
import Evm.Word

/-!
# The access journal

What a transaction has accessed so far, which accounts it has touched, and its transient storage.
Every open checkpoint has a level that lists the changes made since; reverting undoes them one by
one, committing hands them to the level below. What was warmed for the whole transaction is kept
apart and survives every revert.
-/

namespace Evm

/-- A slot of an account. -/
structure Slot where
  address : Address
  index : Word
  deriving DecidableEq, Repr

namespace Slot

/-- Slots are ordered by account, then index. -/
def cmp : Slot → Slot → Ordering := compareLex (compareOn address) (compareOn index)

instance : Ord Slot := ⟨cmp⟩

instance : Std.TransOrd Slot :=
  inferInstanceAs (Std.TransCmp (compareLex (compareOn address) (compareOn index)))

instance : Std.LawfulEqOrd Slot where
  compare_self := Std.ReflOrd.compare_self
  eq_of_compare {a b} h := by
    have h' : cmp a b = .eq := h
    simp only [cmp, compareLex_eq_eq, compareOn] at h'
    obtain ⟨h1, h2⟩ := h'
    cases a
    cases b
    simp_all

end Slot

namespace Journal

/-- The changes made since a checkpoint, the latest first. -/
structure Level where
  warmed : List Address := []
  warmedSlots : List Slot := []
  touched : List Address := []
  /-- Slots of transient storage with the values that writes replaced. -/
  transient : List (Slot × Word) := []
  deriving DecidableEq, Repr

/-- The changes of a level followed by those of a later one. -/
def Level.append (earlier later : Level) : Level where
  warmed := later.warmed ++ earlier.warmed
  warmedSlots := later.warmedSlots ++ earlier.warmedSlots
  touched := later.touched ++ earlier.touched
  transient := later.transient ++ earlier.transient

end Journal

/-- The journal of a transaction. The levels are those of the open checkpoints, the latest first. -/
structure Journal where
  alwaysWarm : Std.ExtTreeSet Address := ∅
  alwaysWarmSlots : Std.ExtTreeSet Slot := ∅
  warm : Std.ExtTreeSet Address := ∅
  warmSlots : Std.ExtTreeSet Slot := ∅
  touched : Std.ExtTreeSet Address := ∅
  /-- Transient storage without its zeros. -/
  transient : Std.ExtTreeMap Slot Word := ∅
  levels : List Journal.Level := []

namespace Journal

/-- A journal in which nothing has been recorded. -/
def empty : Journal := {}

instance : Inhabited Journal := ⟨empty⟩

/-- The account whose touch survives a revert, that of the precompiled contract RIPEMD-160. -/
def stickyTouch : Address := 3

/-- Records a change at the latest checkpoint, if one is open. -/
def record (j : Journal) (change : Level → Level) : Journal :=
  match j.levels with
  | [] => j
  | level :: below => { j with levels := change level :: below }

/-! ## Warm accounts and slots -/

/-- Whether the account has been accessed. -/
def isWarm (j : Journal) (a : Address) : Bool := j.alwaysWarm.contains a || j.warm.contains a

/-- Whether the slot has been accessed. -/
def isWarmSlot (j : Journal) (s : Slot) : Bool :=
  j.alwaysWarmSlots.contains s || j.warmSlots.contains s

/-- Marks an account warm and tells whether it was cold. -/
def access (j : Journal) (a : Address) : Bool × Journal :=
  if j.isWarm a then (false, j)
  else
    (true, { j with warm := j.warm.insert a }.record fun level =>
      { level with warmed := a :: level.warmed })

/-- Marks a slot warm and tells whether it was cold. -/
def accessSlot (j : Journal) (s : Slot) : Bool × Journal :=
  if j.isWarmSlot s then (false, j)
  else
    (true, { j with warmSlots := j.warmSlots.insert s }.record fun level =>
      { level with warmedSlots := s :: level.warmedSlots })

/-- Marks an account warm for the whole transaction. -/
def keepWarm (j : Journal) (a : Address) : Journal :=
  { j with alwaysWarm := j.alwaysWarm.insert a }

/-- Marks a slot warm for the whole transaction. -/
def keepWarmSlot (j : Journal) (s : Slot) : Journal :=
  { j with alwaysWarmSlots := j.alwaysWarmSlots.insert s }

/-! ## Touched accounts -/

/-- Whether the account has been touched. -/
def isTouched (j : Journal) (a : Address) : Bool := j.touched.contains a

/-- Marks an account touched. -/
def touch (j : Journal) (a : Address) : Journal :=
  if j.isTouched a then j
  else { j with touched := j.touched.insert a }.record fun level =>
    { level with touched := a :: level.touched }

/-- The touched accounts in ascending order. -/
def touchedList (j : Journal) : List Address := j.touched.toList

/-! ## Transient storage -/

/-- The value of a slot of transient storage. -/
def tload (j : Journal) (s : Slot) : Word := j.transient.getD s 0

/-- Transient storage with a slot set, which has no entry if the value is zero. -/
def setTransient (t : Std.ExtTreeMap Slot Word) (s : Slot) (value : Word) :
    Std.ExtTreeMap Slot Word :=
  if value = 0 then t.erase s else t.insert s value

/-- Sets a slot of transient storage. -/
def tstore (j : Journal) (s : Slot) (value : Word) : Journal :=
  let prior := j.tload s
  if prior = value then j
  else { j with transient := setTransient j.transient s value }.record fun level =>
    { level with transient := (s, prior) :: level.transient }

/-! ## Checkpoints -/

/-- Number of open checkpoints. -/
def depth (j : Journal) : Nat := j.levels.length

/-- Opens a checkpoint. -/
def checkpoint (j : Journal) : Journal := { j with levels := {} :: j.levels }

/-- Keeps the changes since the latest checkpoint, none if there is no checkpoint. -/
def commit? (j : Journal) : Option Journal :=
  match j.levels with
  | [] => none
  | [_] => some { j with levels := [] }
  | level :: parent :: below => some { j with levels := parent.append level :: below }

/-- The journal with the changes of a level undone. -/
def undo (j : Journal) (level : Level) : Journal :=
  { j with
    warm := level.warmed.foldl (·.erase ·) j.warm
    warmSlots := level.warmedSlots.foldl (·.erase ·) j.warmSlots
    touched := (level.touched.filter (· != stickyTouch)).foldl (·.erase ·) j.touched
    transient := level.transient.foldl (fun t (s, prior) => setTransient t s prior) j.transient }

/-- Undoes the changes since the latest checkpoint, none if there is no checkpoint. A touch that
survives passes to the checkpoint below. -/
def revert? (j : Journal) : Option Journal :=
  match j.levels with
  | [] => none
  | level :: below =>
    let undone := { j with levels := below }.undo level
    some <|
      if level.touched.contains stickyTouch then
        undone.record fun parent => { parent with touched := stickyTouch :: parent.touched }
      else undone

end Journal

end Evm
