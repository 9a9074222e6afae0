import Evm.Word

/-!
# The stack

At most 1024 words. The height is kept beside the words so that a push need not count them.
-/

namespace Evm

/-- The largest number of words on a stack. -/
def stackLimit : Nat := 1024

/-- A stack, its words from the top down. -/
structure Stack where
  words : List Word
  height : Nat
  height_eq : height = words.length
  height_le : height ≤ stackLimit

namespace Stack

/-- No words. -/
def empty : Stack := ⟨[], 0, rfl, Nat.zero_le _⟩

instance : Inhabited Stack := ⟨empty⟩

/-- Two stacks with the same words are the same. -/
@[ext] theorem ext {s t : Stack} (h : s.words = t.words) : s = t := by
  cases s
  cases t
  simp_all

instance : DecidableEq Stack := fun s t =>
  if h : s.words = t.words then isTrue (ext h) else isFalse fun e => h (e ▸ rfl)

/-- Whether there are no words. -/
def isEmpty (s : Stack) : Bool := s.height == 0

/-- The stack with one more word on top, if there is room. -/
def push? (s : Stack) (w : Word) : Option Stack :=
  if h : s.height < stackLimit then
    some ⟨w :: s.words, s.height + 1, by simp [s.height_eq], h⟩
  else none

/-- The stack without its `n` topmost words. -/
def drop (s : Stack) (n : Nat) : Stack :=
  ⟨s.words.drop n, s.height - n, by simp [s.height_eq],
    Nat.le_trans (Nat.sub_le _ _) s.height_le⟩

/-- The `n` topmost words, the top first, and the stack without them. -/
def pop? (s : Stack) (n : Nat) : Option (Vector Word n × Stack) :=
  if h : n ≤ s.height then
    some (⟨(s.words.take n).toArray, by
      rw [List.size_toArray, List.length_take, ← s.height_eq]
      exact Nat.min_eq_left h⟩, s.drop n)
  else none

/-- The word `n` places below the top. -/
def peek? (s : Stack) (n : Nat) : Option Word := s.words[n]?

/-- The stack with another word on top. -/
def setTop (s : Stack) (w : Word) : Stack :=
  ⟨s.words.set 0 w, s.height, by simp [s.height_eq], s.height_le⟩

/-- The stack with a copy of its `n`-th word on top, the top being the first. -/
def dup? (s : Stack) (n : Nat) : Option Stack :=
  if n = 0 then none else (s.words[n - 1]?).bind s.push?

/-- The stack with the top and the word `n` places below it exchanged. -/
def swap? (s : Stack) (n : Nat) : Option Stack :=
  match s.words, s.words[n]? with
  | top :: _, some other =>
    if n = 0 then none
    else some ⟨(s.words.set 0 other).set n top, s.height, by simp [s.height_eq], s.height_le⟩
  | _, _ => none

/-- The words in decimal from the bottom up. -/
def render (s : Stack) : String :=
  "[" ++ ", ".intercalate (s.words.reverse.map fun w => toString w.toNat) ++ "]"

end Stack

end Evm
