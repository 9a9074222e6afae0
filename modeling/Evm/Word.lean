import Evm.Count

/-!
# Machine words

The machine computes on 256-bit words. Addresses are 160-bit numbers and hashes are words, so a
hash can be pushed on the stack as it is and an address only has to be widened. This file holds
the arithmetic that the instructions add to that of bit vectors: division by zero gives zero,
shift distances and indices are words themselves, and signed operations read a word as a two's
complement integer.
-/

namespace Evm

/-- A 256-bit machine word. -/
abbrev Word := BitVec 256

/-- An account address. -/
abbrev Address := BitVec 160

/-- A 256-bit hash. -/
abbrev Hash := BitVec 256

/-- Words, as the keys of maps and sets, are in a total order. -/
instance : Std.TransOrd Word := inferInstance

/-- Addresses are in a total order as well. -/
instance : Std.TransOrd Address := inferInstance

namespace Word

/-- The largest word. -/
def max : Word := BitVec.allOnes 256

/-- One for true, zero for false. -/
def ofBool (b : Bool) : Word := if b then 1 else 0

/-- An address in the low 160 bits of a word. -/
def ofAddress (a : Address) : Word := a.setWidth 256

/-- The address in the low 160 bits of a word. -/
def toAddress (w : Word) : Address := w.setWidth 160

/-- The word as a count, if it is one. -/
def toCount? (w : Word) : Option Nat := if w.toNat ≤ Count.max then some w.toNat else none

/-- The word as a count, the largest one standing for everything past it. -/
def toCount (w : Word) : Nat := Nat.min w.toNat Count.max

/-! ## Arithmetic that stops at the bounds of a word -/

/-- Addition that stops at the largest word. -/
def satAdd (a b : Word) : Word := BitVec.ofNat 256 (Nat.min (a.toNat + b.toNat) max.toNat)

/-- Subtraction that stops at zero. -/
def satSub (a b : Word) : Word := BitVec.ofNat 256 (a.toNat - b.toNat)

/-- Multiplication that stops at the largest word. -/
def satMul (a b : Word) : Word := BitVec.ofNat 256 (Nat.min (a.toNat * b.toNat) max.toNat)

/-! ## Modular arithmetic -/

/-- The power `b ^ e` modulo `m`, by repeated squaring. -/
def powMod (b e m : Nat) : Nat :=
  if e = 0 then 1 % m
  else
    let half := powMod (b * b % m) (e / 2) m
    if e % 2 = 0 then half else b * half % m
termination_by e
decreasing_by omega

/-- The sum `a + b` modulo `n` without an intermediate bound, zero for `n = 0`. -/
def addMod (a b n : Word) : Word :=
  if n = 0 then 0 else BitVec.ofNat 256 ((a.toNat + b.toNat) % n.toNat)

/-- The product `a * b` modulo `n` without an intermediate bound, zero for `n = 0`. -/
def mulMod (a b n : Word) : Word :=
  if n = 0 then 0 else BitVec.ofNat 256 ((a.toNat * b.toNat) % n.toNat)

/-- The power `b ^ e`, without what exceeds a word. -/
def pow (b e : Word) : Word := BitVec.ofNat 256 (powMod b.toNat e.toNat (max.toNat + 1))

/-! ## Signed reading -/

/-- Sign of a word read as a two's complement integer. -/
inductive Sign where
  | plus
  | minus
  | zero
  deriving DecidableEq, Repr

/-- The name of the sign in reports. -/
def Sign.name : Sign → String
  | plus => "Plus"
  | minus => "Minus"
  | zero => "Zero"

/-- Minus before zero before plus. -/
def Sign.rank : Sign → Int
  | minus => -1
  | zero => 0
  | plus => 1

/-- The sign of `w` read as a two's complement integer. -/
def sign (w : Word) : Sign := if w.msb then .minus else if w = 0 then .zero else .plus

/-- The smallest two's complement integer, the sign bit alone. -/
def minValue : Word := BitVec.intMin 256

/-- The word without its sign bit. -/
def dropSign (w : Word) : Word := w &&& ~~~minValue

/-- The absolute value of `w`, as an unsigned word. -/
def magnitude (w : Word) : Word := if w.sign = .minus then -w else w

/-- Compares two words as two's complement integers. Words of one sign are in the order of their
unsigned values. -/
def signedCompare (a b : Word) : Ordering :=
  (compare a.sign.rank b.sign.rank).then (compare a.toNat b.toNat)

/-- Quotient rounded toward zero, zero for a zero divisor. -/
def signedDiv (a b : Word) : Word :=
  if b.sign = .zero then 0
  -- the one quotient that needs the sign bit for its magnitude
  else if a.magnitude = minValue ∧ b.magnitude = 1 then -minValue
  else
    let q := dropSign (a.magnitude / b.magnitude)
    if q = 0 then 0
    else if (a.sign == .minus) != (b.sign == .minus) then -q
    else q

/-- Remainder with the sign of the dividend, zero for a zero divisor. -/
def signedMod (a b : Word) : Word :=
  if a.sign = .zero then 0
  else if b.sign = .zero then 0
  else
    let r := dropSign (a.magnitude % b.magnitude)
    if r = 0 then 0
    else if a.sign = .minus then -r
    else r

/-- Extends the sign of the number held in the low `k + 1` bytes of `w`. -/
def signExtend (k w : Word) : Word :=
  if k < 31 then
    let signBit := 8 * k.toNat + 7
    let mask := ((1 : Word) <<< signBit) - 1
    if w.getLsbD signBit then w ||| ~~~mask else w &&& mask
  else w

/-! ## Bits and bytes -/

/-- Byte `i` of `w`, counted from the most significant one, zero past the last. -/
def byteAt (i w : Word) : Word :=
  let i := i.toCount
  if i < 32 then (w.extractLsb' (8 * (31 - i)) 8).setWidth 256 else 0

/-- The word `w` shifted left by `s` bits. -/
def shiftLeft (s w : Word) : Word :=
  let s := s.toCount
  if s < 256 then w <<< s else 0

/-- The word `w` shifted right by `s` bits. -/
def shiftRight (s w : Word) : Word :=
  let s := s.toCount
  if s < 256 then w >>> s else 0

/-- The word `w` shifted right by `s` bits, the sign filling in from the left. -/
def shiftRightSigned (s w : Word) : Word := w.sshiftRight (Nat.min s.toCount 255)

/-- The limb `i` of `w`, 64 bits wide, counted from the least significant one. -/
def limb (w : Word) (i : Nat) : BitVec 64 := w.extractLsb' (64 * i) 64

/-- Looks for the highest bit of `w` in its lowest limbs, the highest of them first. What is left of
`bits` when it is found is its place. -/
def highestBit (w : Word) : (limbs bits : Nat) → Nat
  | 0, bits => bits
  | i + 1, bits =>
    if w.limb i = 0 then highestBit w i (bits - 64)
    else
      let bits := bits - (w.limb i).clz.toNat
      if bits = 0 then bits else bits - 1

/-- The logarithm of `w` to the base two, rounded down, zero for a zero word. -/
def log2 (w : Word) : Nat := highestBit w 4 256

end Word

end Evm
