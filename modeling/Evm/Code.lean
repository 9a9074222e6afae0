import Evm.Crypto.Keccak
import Evm.Instruction.Basic

/-!
# Code and its analysis

A jump may only go to a `JUMPDEST` that is an instruction of its own and not part of the bytes that
a push carries. One pass over the code sorts its positions; `JumpTable.analyze` keeps what the pass
finds, together with the word that every push puts on the stack.
-/

namespace Evm

/-- What stands at a position of code. -/
inductive Place where
  /-- A byte carried by a push. -/
  | immediate
  /-- The start of an instruction that is none of the following. -/
  | plain
  | jumpDest
  | beginSub
  /-- A push that carries bytes, with the word that they spell. -/
  | push (value : Word)
  deriving DecidableEq, Repr

/-- The places of a piece of code, one for each byte. -/
structure JumpTable where
  places : Array Place
  deriving DecidableEq

namespace JumpTable

/-- What stands at `pc`, if it is in the code. -/
def place? (t : JumpTable) (pc : Nat) : Option Place := t.places[pc]?

/-- Whether a jump may go to `pc`. -/
def isJumpDest (t : JumpTable) (pc : Nat) : Bool := t.place? pc == some .jumpDest

/-- Whether a subroutine begins at `pc`. -/
def isBeginSub (t : JumpTable) (pc : Nat) : Bool := t.place? pc == some .beginSub

/-- The word that the push at `pc` puts on the stack. -/
def pushValue? (t : JumpTable) (pc : Nat) : Option Word :=
  match t.place? pc with
  | some (.push value) => some value
  | _ => none

/-- Number of positions that a jump may go to. -/
def jumpDestCount (t : JumpTable) : Nat := t.places.countP (· == .jumpDest)

/-- The word that the `len` bytes from `start` on spell. Those that the end of the code cuts off are
zero. -/
def carriedWord (code : Bytes) (start len : Nat) : Word :=
  let data := code.extract start (Nat.min (start + len) code.size)
  Bytes.toWord (Array.replicate (32 - len) 0 ++ data ++ Array.replicate (len - data.size) 0)

/-- What the instruction with the byte `b` at position `pc` is. -/
def classify (code : Bytes) (pc : Nat) (b : UInt8) : Place :=
  if b = 0x5b then .jumpDest
  else if b = 0x5c then .beginSub
  else if 0 < immediateSize b then .push (carriedWord code (pc + 1) (immediateSize b))
  else .plain

/-- The places of the positions before the next instruction. -/
structure Scan where
  pc : Nat
  places : Array Place

namespace Scan

/-- Nothing is sorted yet. -/
def start : Scan := ⟨0, #[]⟩

/-- Sorts the instruction that is next, with the bytes that it carries as far as there are any. -/
def advance (code : Bytes) (s : Scan) : Scan :=
  let b := code.getD s.pc 0
  let carried := Nat.min (immediateSize b) (code.size - (s.pc + 1))
  { pc := s.pc + 1 + immediateSize b
    places := s.places.push (classify code s.pc b) ++ Array.replicate carried .immediate }

/-- Sorts what is left of the code. -/
def finish (code : Bytes) (s : Scan) : Scan :=
  if s.pc < code.size then finish code (s.advance code) else s
termination_by code.size - s.pc
decreasing_by
  simp only [advance]
  omega

end Scan

/-- Sorts all positions. -/
def analyze (code : Bytes) : JumpTable := ⟨(Scan.start.finish code).places⟩

end JumpTable

/-- The hash of no bytes. -/
def emptyHash : Hash := 0xc5d2460186f7233c927e7db2dcc703c0e500b653ca82273b7bfad8045d85a470

/-- Code with its hash and, computed when first asked for, its analysis. -/
structure Code where
  bytes : Bytes
  hash : Hash
  table : Thunk JumpTable := Thunk.mk fun _ => JumpTable.analyze bytes
  table_eq : table.get = JumpTable.analyze bytes := by rfl

namespace Code

/-- Code with a hash that is known already. -/
def ofHashed (bytes : Bytes) (hash : Hash) : Code := { bytes, hash }

/-- Code with its own hash. -/
def ofBytes (bytes : Bytes) : Code :=
  ofHashed bytes (if bytes.isEmpty then emptyHash else Crypto.Keccak.hash bytes)

/-- No code. -/
def empty : Code := ofHashed #[] emptyHash

instance : Inhabited Code := ⟨empty⟩

/-- Number of bytes. -/
def size (c : Code) : Nat := c.bytes.size

/-- Whether there are no bytes. -/
def isEmpty (c : Code) : Bool := c.bytes.isEmpty

/-- The byte at `pc`, that of `STOP` past the end. -/
def byteAt (c : Code) (pc : Nat) : UInt8 := c.bytes.getD pc 0

/-- The analysis of the code. -/
def jumpTable (c : Code) : JumpTable := c.table.get

end Code

end Evm
