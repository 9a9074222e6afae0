import Evm.Word

/-!
# Byte strings

Code, call data, memory and stored values are byte strings. Instructions and precompiled contracts
read them as if they went on with zero bytes for ever; `Bytes.window` is that reading. Numbers
are written big-endian.
-/

namespace Evm

/-- A byte string. -/
abbrev Bytes := Array UInt8

namespace Bytes

/-- The `len` bytes from `start` on, bytes past the end reading as zero. -/
def window (b : Bytes) (start len : Nat) : Bytes :=
  Array.ofFn fun i : Fin len => b.getD (start + i) 0

/-- The side of a string on which zero bytes are put. -/
inductive Side where
  | left
  | right

/-- The string `b` with zero bytes put on a side up to a length of `len`. -/
def pad (side : Side) (b : Bytes) (len : Nat) : Bytes :=
  match side with
  | .left => Array.replicate (len - b.size) 0 ++ b
  | .right => b ++ Array.replicate (len - b.size) 0

/-- The first `len` bytes of `b`, zero bytes put on a side if there are fewer. -/
def fit (side : Side) (b : Bytes) (len : Nat) : Bytes :=
  if len ≤ b.size then b.extract 0 len else pad side b len

/-- The first `len` bytes of `b`, zero bytes put in front if there are fewer. -/
def fitLeft (b : Bytes) (len : Nat) : Bytes := fit .left b len

/-- The first `len` bytes of `b`, zero bytes put after them if there are fewer. -/
def fitRight (b : Bytes) (len : Nat) : Bytes := fit .right b len

/-- The first `len` bytes of what `b` holds from `start` on, zero bytes put after them if there are
fewer. -/
def fitRightFrom (b : Bytes) (start len : Nat) : Bytes := fitRight (b.drop start) len

/-- The big-endian number that `b` spells. -/
def toNat (b : Bytes) : Nat := b.foldl (fun n x => n * 256 + x.toNat) 0

/-- The last `len` bytes of the big-endian spelling of `n`. -/
def ofNat (len n : Nat) : Bytes :=
  Array.ofFn fun i : Fin len => UInt8.ofNat (n >>> (8 * (len - 1 - i)))

/-- The word that `b` spells, its leading bytes dropped if there are more than 32. -/
def toWord (b : Bytes) : Word := BitVec.ofNat 256 (toNat b)

/-- The 32 bytes of a word. -/
def ofWord (w : Word) : Bytes := ofNat 32 w.toNat

/-- The 20 bytes of an address. -/
def ofAddress (a : Address) : Bytes := ofNat 20 a.toNat

@[simp] theorem size_window (b : Bytes) (start len : Nat) : (window b start len).size = len :=
  Array.size_ofFn

@[simp] theorem size_ofNat (len n : Nat) : (ofNat len n).size = len := Array.size_ofFn

/-- Byte `i` of a window is byte `start + i` of the zero-extended string. -/
@[simp] theorem getElem_window (b : Bytes) (start len i : Nat)
    (h : i < (window b start len).size) :
    (window b start len)[i] = b.getD (start + i) 0 := by
  simp [window]

end Bytes

end Evm
