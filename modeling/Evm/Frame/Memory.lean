import Evm.Bytes

/-!
# Memory

The byte-addressed memory of a frame. It grows by zero bytes and never shrinks. Instructions make
it large enough before they use it.
-/

namespace Evm

/-- The memory of a frame. -/
structure Memory where
  bytes : Bytes := #[]
  deriving DecidableEq, Repr, Inhabited

namespace Memory

/-- Number of bytes. -/
def size (m : Memory) : Nat := m.bytes.size

/-- Whether there are no bytes. -/
def isEmpty (m : Memory) : Bool := m.bytes.isEmpty

/-- The memory grown to `len` bytes if it is smaller. -/
def grow (m : Memory) (len : Nat) : Memory :=
  ⟨m.bytes ++ Array.replicate (len - m.bytes.size) 0⟩

/-- The `len` bytes from `start` on. -/
def read (m : Memory) (start len : Nat) : Bytes := m.bytes.extract start (start + len)

/-- The word at `start`. -/
def readWord (m : Memory) (start : Nat) : Word := (m.read start 32).toWord

/-- Replaces the bytes from `start` on. -/
def writeList (b : Bytes) (start : Nat) : List UInt8 → Bytes
  | [] => b
  | x :: rest => writeList (b.setIfInBounds start x) (start + 1) rest

/-- The memory with the bytes from `start` on replaced by `src`. -/
def write (m : Memory) (start : Nat) (src : Bytes) : Memory :=
  ⟨writeList m.bytes start src.toList⟩

/-- The memory with one byte replaced. -/
def writeByte (m : Memory) (start : Nat) (x : UInt8) : Memory := ⟨m.bytes.setIfInBounds start x⟩

/-- The memory with the 32 bytes from `start` on replaced by a word. -/
def writeWord (m : Memory) (start : Nat) (w : Word) : Memory := m.write start (Bytes.ofWord w)

/-- The memory with the `len` bytes from `start` on replaced by those of `src` from `srcStart` on,
where `src` goes on with zero bytes. -/
def writeWindow (m : Memory) (start : Nat) (src : Bytes) (srcStart len : Nat) : Memory :=
  m.write start (src.window srcStart len)

/-- The memory with `len` bytes copied within it; the ranges may overlap. -/
def copyWithin (m : Memory) (dst src len : Nat) : Memory := m.write dst (m.read src len)

end Memory

end Evm
