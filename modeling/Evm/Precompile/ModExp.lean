import Evm.Precompile.Basic

/-!
# Modular exponentiation

The input is three lengths of 32 bytes each and then base, exponent and modulus of these lengths. It
is read as if it went on with zero bytes. The price grows with the square of the longer of base and
modulus, and with the number of squarings that the exponent asks for.
-/

namespace Evm.Precompile.ModExp

/-- The lengths of the operands. -/
structure Lengths where
  base : Nat
  exponent : Nat
  modulus : Nat
  deriving DecidableEq, Repr

/-- The number of bytes that the operands take up, as far as it can be counted. -/
def Lengths.total (l : Lengths) : Nat :=
  Count.satAdd (Count.satAdd l.base l.exponent) l.modulus

/-- Where the operands begin. -/
def headerSize : Nat := 96

/-- The number in the 32 bytes of the header from `start` on. -/
def announced (input : Bytes) (start : Nat) : Nat := (input.fitRightFrom start 32).toNat

/-- The lengths that the input announces, none if base and modulus are both empty. The length of the
exponent is not looked at in that case. -/
def lengths (input : Bytes) : Except Error (Option Lengths) :=
  let base := announced input 0
  let exponent := announced input 32
  let modulus := announced input 64
  if Count.max < base then .error .modExpBaseLength
  else if Count.max < modulus then .error .modExpModulusLength
  else if base = 0 ∧ modulus = 0 then .ok none
  else if Count.max < exponent then .error .modExpExponentLength
  else .ok (some { base, exponent, modulus })

/-! ## Operands -/

/-- The number that the first 32 bytes of the exponent spell, or all of them if there are fewer. The
operands are what follows the header. -/
def exponentHead (operands : Bytes) (l : Lengths) : Nat :=
  let first := operands.fitRightFrom l.base 32
  (Bytes.fitLeft (first.extract 0 (Nat.min l.exponent 32)) 32).toNat

/-- Base, exponent and modulus. -/
structure Operands where
  base : Bytes
  exponent : Bytes
  modulus : Bytes
  deriving DecidableEq, Repr

/-- Cuts up what follows the header. -/
def split (operands : Bytes) (l : Lengths) : Operands :=
  let all := operands.fitRight l.total
  let rest := all.drop l.base
  { base := all.take l.base, exponent := rest.take l.exponent, modulus := rest.drop l.exponent }

/-! ## Prices -/

/-- Number of bits of a number, none for zero. -/
def bitLength (n : Nat) : Nat := if n = 0 then 0 else n.log2 + 1

/-- Number of squarings for an exponent of that length and head, at least one. -/
def squarings (length head : Nat) : Nat :=
  let ofHead := bitLength head - 1
  let count := if length ≤ 32 then ofHead else Count.satAdd (Count.satMul 8 (length - 32)) ofHead
  Nat.max count 1

/-- Cost of one multiplication of numbers of `x` bytes under the first price. -/
def firstComplexity (x : Nat) : Word :=
  let w := BitVec.ofNat 256 x
  if x ≤ 64 then w * w
  else if x ≤ 1024 then w * w / 4 + 96 * w - 3072
  else w * w / 16 + 480 * w - 199680

/-- Cost of one multiplication of numbers of `x` bytes under the second price. -/
def secondComplexity (x : Nat) : Word :=
  let limbs := BitVec.ofNat 256 ((x + 7) / 8)
  limbs * limbs

/-- Price of as many multiplications as the exponent asks for, in units of which `divisor` make one
gas. -/
def priceWith (minimum : Nat) (divisor : Word) (complexity : Nat → Word)
    (base exponent modulus head : Nat) : Nat :=
  let multiplications := BitVec.ofNat 256 (squarings exponent head)
  let gas := Word.satMul (complexity (Nat.max base modulus)) multiplications / divisor
  Nat.max minimum gas.toCount

/-- The first price. -/
def firstPrice (base exponent modulus head : Nat) : Nat :=
  priceWith 0 20 firstComplexity base exponent modulus head

/-- The least that is paid under the second price. -/
def secondMinimum : Nat := 200

/-- The second price. -/
def secondPrice (base exponent modulus head : Nat) : Nat :=
  priceWith secondMinimum 3 secondComplexity base exponent modulus head

/-! ## The contract -/

/-- The power of operands of known lengths, as long as the modulus. -/
def raise (power : Bytes → Bytes → Bytes → Bytes)
    (price : (base exponent modulus head : Nat) → Nat) (operands : Bytes) (l : Lengths)
    (gasLimit : Nat) : Except Error Output := do
  let gasUsed := price l.base l.exponent l.modulus (exponentHead operands l)
  charge gasUsed gasLimit
  let { base, exponent, modulus } := split operands l
  return { gasUsed, bytes := (power base exponent modulus).fitLeft l.modulus }

/-- The power for an input. At least the minimum is paid, and no more than that if there is nothing
to compute. -/
def run (power : Bytes → Bytes → Bytes → Bytes) (minimum : Nat)
    (price : (base exponent modulus head : Nat) → Nat) (input : Bytes) (gasLimit : Nat) :
    Except Error Output := do
  charge minimum gasLimit
  match ← lengths input with
  | none => return { gasUsed := minimum, bytes := #[] }
  | some l => raise power price (input.drop headerSize) l gasLimit

/-- The contract under the first price. -/
def runFirst (power : Bytes → Bytes → Bytes → Bytes) :
    Bytes → Nat → Except Error Output :=
  run power 0 firstPrice

/-- The contract under the second price. -/
def runSecond (power : Bytes → Bytes → Bytes → Bytes) :
    Bytes → Nat → Except Error Output :=
  run power secondMinimum secondPrice

end Evm.Precompile.ModExp
