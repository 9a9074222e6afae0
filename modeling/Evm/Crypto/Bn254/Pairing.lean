import Evm.Crypto.Bn254.Field

/-!
# The bn254 pairing check

A pairing takes a point of the curve `y² = x³ + 3` and a point of its twist to the extension of
degree twelve, and turns sums of points into products. `pairingProductIsOne` decides whether the
product of the pairings of a list of pairs is one, which does not depend on which pairing of the
two groups is taken; this is the ate pairing with the loop length `6u²`.
-/

namespace Evm.Crypto.Bn254

/-- A point of the first group. -/
abbrev G1 := Point Fp

/-- A point of the second group, on the twist. -/
abbrev G2 := Point Fp2

/-- The constant of the curve. -/
def curveB : Fp := residue 3

/-- The constant of the twist. -/
def twistB : Fp2 := Fp2.nonResidue⁻¹.scale curveB

/-- Whether a point of the twist belongs to the second group. -/
def inG2 (q : G2) : Bool := q.onCurve twistB && (Jacobian.scale order (Jacobian.ofPoint q)).z == 0

/-- The loop length `6u²` of the pairing for the curve parameter `u = 4965661367192848881`. -/
def loopLength : Nat := 6 * 4965661367192848881 * 4965661367192848881

/-- The exponent that makes the value of the loop unique. -/
def finalExponent : Nat := (Nat.pow fieldPrime 12 - 1) / order

/-- The value so far and the multiple of the twist point it belongs to. -/
structure Loop where
  value : Fp12
  (x y : Fp2)

/-- Multiplies by the line through the current multiple with the given slope, taken at `(px, py)`,
and moves on to the negative of the third point on that line. `otherX` is the abscissa of the second
point. -/
def Loop.advance (s : Loop) (px py : Fp) (slope otherX : Fp2) : Loop :=
  let zero : Fp2 := 0
  let value := s.value.mulSparse py (zero - slope.scale px) (slope * s.x - s.y)
  let x := slope * slope - s.x - otherX
  ⟨value, x, slope * (s.x - x) - s.y⟩

/-- The step for one bit of the loop length: doubling, and adding the twist point for a set bit. -/
def Loop.step (px py : Fp) (qx qy : Fp2) (s : Loop) (bit : Bool) : Loop :=
  let xx := s.x * s.x
  let doubled := Loop.advance { s with value := s.value.mul s.value } px py
    ((xx + xx + xx) * (s.y + s.y)⁻¹) s.x
  if bit then
    doubled.advance px py ((qy - doubled.y) * (qx - doubled.x)⁻¹) qx
  else doubled

/-- The bits of the loop length below the first, the most significant first. -/
def loopBits : List Bool :=
  (List.range loopLength.log2).reverse.map loopLength.testBit

/-- The value of the loop for a pair of points, one if either is at infinity. -/
def millerLoop : G1 × G2 → Fp12
  | (.affine px py, .affine qx qy) =>
    (loopBits.foldl (Loop.step px py qx qy) ⟨Fp12.one, qx, qy⟩).value
  | _ => Fp12.one

/-- Whether the product of the pairings of all pairs is one. -/
def pairingProductIsOne (pairs : List (G1 × G2)) : Bool :=
  let product := pairs.foldl (fun f pair => f.mul (millerLoop pair)) Fp12.one
  (product.pow finalExponent).isOne

end Evm.Crypto.Bn254
