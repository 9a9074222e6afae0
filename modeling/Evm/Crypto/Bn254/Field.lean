import Evm.Crypto.Curve

/-!
# The fields of bn254

The base field, its quadratic extension by a root of `-1`, and the extension of degree twelve that
adjoins a sixth root `w` of `9 + i`.
-/

namespace Evm.Crypto.Bn254

/-- The prime of the base field. -/
def fieldPrime : Nat := 0x30644e72e131a029b85045b68181585d97816a916871ca8d3c208c16d87cfd47

/-- The order of the groups. -/
def order : Nat := 0x30644e72e131a029b85045b68181585d2833e84879b9709143e1f593f0000001

instance : Positive fieldPrime := ⟨by decide⟩

/-- The base field. -/
abbrev Fp := Fin fieldPrime

instance : FieldOps Fp := primeField fieldPrime

/-- The number `re + im * i` with `i² = -1`. -/
structure Fp2 where
  (re im : Fp)

namespace Fp2

/-- The product of two elements. -/
def mul (a b : Fp2) : Fp2 :=
  let re := a.re * b.re
  let im := a.im * b.im
  ⟨re - im, (a.re + a.im) * (b.re + b.im) - re - im⟩

/-- The inverse of an element. -/
def inv (a : Fp2) : Fp2 :=
  let n := (a.re * a.re + a.im * a.im)⁻¹
  ⟨a.re * n, FieldOps.toZero.zero - a.im * n⟩

instance : FieldOps Fp2 where
  zero := ⟨residue 0, residue 0⟩
  one := ⟨residue 1, residue 0⟩
  add a b := ⟨a.re + b.re, a.im + b.im⟩
  sub a b := ⟨a.re - b.re, a.im - b.im⟩
  mul := mul
  inv := inv
  beq a b := a.re == b.re && a.im == b.im

/-- An element times a number of the base field. -/
def scale (a : Fp2) (k : Fp) : Fp2 := ⟨a.re * k, a.im * k⟩

/-- The element `9 + i`, the sixth power of `w`. -/
def nonResidue : Fp2 := ⟨residue 9, residue 1⟩

end Fp2

/-- An element of the extension of degree twelve, by its coefficients of `1`, `w`, …, `w⁵`. -/
abbrev Fp12 := Vector Fp2 6

namespace Fp12

/-- One. -/
def one : Fp12 := Vector.ofFn fun k => if k.val = 0 then 1 else 0

/-- The product of two elements. -/
def mul (a b : Fp12) : Fp12 :=
  Vector.ofFn fun k => (List.finRange 6).foldl (fun sum i =>
    let term := a.get i * b.get (Fin.sub k i)
    sum + if i.val ≤ k.val then term else Fp2.nonResidue * term) 0

/-- The product with an element whose only coefficients are those of `1`, `w` and `w³`. -/
def mulSparse (a : Fp12) (c0 : Fp) (c1 c3 : Fp2) : Fp12 :=
  let from? (k : Fin 6) (d : Nat) (c : Fp2) : Fp2 :=
    let term := a.get (Fin.sub k (Fin.ofNat 6 d)) * c
    if d ≤ k.val then term else Fp2.nonResidue * term
  Vector.ofFn fun k => (a.get k).scale c0 + from? k 1 c1 + from? k 3 c3

/-- The power `a ^ n`, by repeated squaring. -/
def pow (a : Fp12) (n : Nat) : Fp12 :=
  if n = 0 then one
  else
    let half := pow (mul a a) (n / 2)
    if n % 2 = 0 then half else mul a half
termination_by n
decreasing_by omega

/-- Whether the element is one. -/
def isOne (a : Fp12) : Bool := (List.finRange 6).all fun k => a.get k == one.get k

end Fp12

end Evm.Crypto.Bn254
