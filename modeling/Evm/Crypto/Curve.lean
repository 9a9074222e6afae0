import Evm.Word

/-!
# Elliptic curves

Points of curves `y² = x³ + b` over any field, with the group law in Jacobian coordinates, so that
adding points needs no inverse. Prime fields are `Fin p` with the inverse of Fermat's little
theorem.
-/

namespace Evm.Crypto

/-- A field, as far as the group law of a curve needs one. -/
class FieldOps (F : Type) extends Zero F, One F, Add F, Sub F, Mul F, Inv F, BEq F

/-- A modulus. -/
class Positive (p : Nat) : Prop where
  pos : 0 < p

/-- The number `n` modulo `p`. -/
def residue {p : Nat} [Positive p] (n : Nat) : Fin p := ⟨n % p, Nat.mod_lt n Positive.pos⟩

/-- The inverse of `a` modulo the prime `p`. -/
def primeInverse (p : Nat) [Positive p] (a : Fin p) : Fin p :=
  residue (Word.powMod a.val (p - 2) p)

/-- The field of the numbers modulo the prime `p`. -/
@[reducible] def primeField (p : Nat) [Positive p] : FieldOps (Fin p) where
  zero := residue 0
  one := residue 1
  add := Fin.add
  sub := Fin.sub
  mul := Fin.mul
  inv := primeInverse p
  beq a b := a.val == b.val

/-- A point of a curve: a pair of coordinates, or the point at infinity. -/
inductive Point (F : Type) where
  | infinity
  | affine (x y : F)

/-- A point `(x / z², y / z³)`, at infinity for `z = 0`. -/
structure Jacobian (F : Type) where
  (x y z : F)

namespace Jacobian

variable {F : Type} [FieldOps F]

/-- The point at infinity. -/
def infinity : Jacobian F := ⟨1, 1, 0⟩

/-- The Jacobian form of a point. -/
def ofPoint : Point F → Jacobian F
  | .infinity => infinity
  | .affine x y => ⟨x, y, 1⟩

/-- The point that a Jacobian triple stands for. -/
def toPoint (p : Jacobian F) : Point F :=
  if p.z == 0 then .infinity
  else
    let inv := p.z⁻¹
    let inv2 := inv * inv
    .affine (p.x * inv2) (p.y * inv2 * inv)

/-- Twice a point. -/
@[specialize] def double (p : Jacobian F) : Jacobian F :=
  if p.z == 0 || p.y == 0 then infinity
  else
    let xx := p.x * p.x
    let yy := p.y * p.y
    let yyyy := yy * yy
    let half := p.x * yy
    let s := half + half + (half + half)
    let m := xx + xx + xx
    let x := m * m - (s + s)
    let four := yyyy + yyyy + (yyyy + yyyy)
    let yz := p.y * p.z
    ⟨x, m * (s - x) - (four + four), yz + yz⟩

/-- The sum of two points. -/
@[specialize] def add (p q : Jacobian F) : Jacobian F :=
  if p.z == 0 then q
  else if q.z == 0 then p
  else
    let pp := p.z * p.z
    let qq := q.z * q.z
    let u1 := p.x * qq
    let u2 := q.x * pp
    let s1 := p.y * (q.z * qq)
    let s2 := q.y * (p.z * pp)
    if u1 == u2 then if s1 == s2 then double p else infinity
    else
      let h := u2 - u1
      let r := s2 - s1
      let hh := h * h
      let hhh := h * hh
      let v := u1 * hh
      let x := r * r - hhh - (v + v)
      ⟨x, r * (v - x) - s1 * hhh, p.z * q.z * h⟩

/-- The multiple `n` of a point, by repeated doubling. -/
@[specialize] def scale (n : Nat) (p : Jacobian F) : Jacobian F :=
  if n = 0 then infinity
  else
    let even := double (scale (n / 2) p)
    if n % 2 = 0 then even else add even p
termination_by n
decreasing_by omega

end Jacobian

namespace Point

variable {F : Type} [FieldOps F]

/-- Whether the point lies on the curve `y² = x³ + b`. -/
def onCurve (b : F) : Point F → Bool
  | .infinity => true
  | .affine x y => y * y == x * x * x + b

/-- The sum of two points. -/
def add (p q : Point F) : Point F :=
  (Jacobian.add (Jacobian.ofPoint p) (Jacobian.ofPoint q)).toPoint

/-- The multiple `n` of a point. -/
def scale (n : Nat) (p : Point F) : Point F := (Jacobian.scale n (Jacobian.ofPoint p)).toPoint

end Point

end Evm.Crypto
