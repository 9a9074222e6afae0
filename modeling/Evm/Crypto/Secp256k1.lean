import Evm.Bytes
import Evm.Crypto.Curve

/-!
# Signer recovery on secp256k1

A signature `(r, s)` with one bit about the point it was made with determines the public key that
made it. The same key made the signature with the opposite second number and the other bit.
-/

namespace Evm.Crypto.Secp256k1

/-- The prime of the base field. -/
def fieldPrime : Nat := 0xfffffffffffffffffffffffffffffffffffffffffffffffffffffffefffffc2f

/-- The order of the group. -/
def order : Nat := 0xfffffffffffffffffffffffffffffffebaaedce6af48a03bbfd25e8cd0364141

instance : Positive fieldPrime := ⟨by decide⟩

/-- The base field. -/
abbrev Fp := Fin fieldPrime

instance : FieldOps Fp := primeField fieldPrime

/-- The generator. -/
def generator : Jacobian Fp :=
  ⟨residue 0x79be667ef9dcbbac55a06295ce870b07029bfcdb2dce28d959f2815b16f81798,
    residue 0x483ada7726a3c4655da4fbfc0e1108a8fd17b448a68554199c47d08ffb10d4b8, 1⟩

/-- The point with abscissa `x` whose ordinate is odd or even as told, if `x` belongs to a point. -/
def lift? (x : Nat) (odd : Bool) : Option (Jacobian Fp) :=
  let square := (x * x * x + 7) % fieldPrime
  let root := Word.powMod square ((fieldPrime + 1) / 4) fieldPrime
  if root * root % fieldPrime ≠ square then none
  else
    let y := if (root % 2 = 1) = odd then root else fieldPrime - root
    some ⟨residue x, residue y, 1⟩

/-- A signature. -/
structure Signature where
  (r s : Nat)

/-- The signature that 64 bytes spell. Both of its numbers are between zero and the order. -/
def signature? (b : Bytes) : Option Signature :=
  let r := Bytes.toNat (b.extract 0 32)
  let s := Bytes.toNat (b.extract 32 64)
  if r = 0 ∨ order ≤ r ∨ s = 0 ∨ order ≤ s then none else some ⟨r, s⟩

/-- The same signature with the smaller second number, unless it is that already. It was made with
the opposite point. -/
def normalize? (sig : Signature) : Option Signature :=
  if order / 2 < sig.s then some { sig with s := order - sig.s } else none

/-- The bytes of the public key behind a signature on `digest`, if there is one. -/
def recoverKey? (sig : Signature) (digest : Bytes) (odd : Bool) : Option Bytes := do
  let point ← lift? sig.r odd
  let inv := Word.powMod sig.r (order - 2) order
  let u1 := (order - digest.toNat % order * inv % order) % order
  let u2 := sig.s * inv % order
  match (Jacobian.add (Jacobian.scale u1 generator) (Jacobian.scale u2 point)).toPoint with
  | .infinity => none
  | .affine x y => some (#[0x04] ++ Bytes.ofNat 32 x.val ++ Bytes.ofNat 32 y.val)

end Evm.Crypto.Secp256k1
