import Evm.Crypto.Bn254.Pairing
import Evm.Crypto.Keccak
import Evm.Crypto.ModularPower
import Evm.Crypto.Ripemd160
import Evm.Crypto.Secp256k1
import Evm.Crypto.Sha256

/-!
# The cryptography behind the precompiled contracts

Hashes, signatures, powers, curves and the proofs of blobs are the business of a library that the
contracts are run with. What the contracts do themselves is to price, to check and to cut up their
inputs, and that is the same for every library.
-/

namespace Evm.Precompile

/-- A scheme of signatures from which the public key can be recovered. -/
structure SignatureScheme where
  Signature : Type
  /-- The signature that some bytes spell, if they do. -/
  signature? : Bytes → Option Signature
  /-- The same signature with the smaller second number, unless it is that already. -/
  normalize? : Signature → Option Signature
  /-- The bytes of the public key behind a signature on a digest. The bit tells the two candidates
  apart. -/
  recoverKey? : Signature → Bytes → Bool → Option Bytes

/-- A group of points with two coordinates each. -/
structure PointGroup where
  Coordinate : Type
  Point : Type
  isZero : Coordinate → Bool
  infinity : Point
  isInfinity : Point → Bool
  /-- The point with these coordinates, if it belongs to the group. -/
  point? : Coordinate → Coordinate → Option Point

/-- Two groups with a pairing. The coordinates of the second are made of two of the first. -/
structure PairingCurve where
  first : PointGroup
  second : PointGroup
  Scalar : Type
  coordinate? : Bytes → Option first.Coordinate
  /-- The coordinate with that real and that imaginary part. -/
  extend : first.Coordinate → first.Coordinate → second.Coordinate
  scalar? : Bytes → Option Scalar
  add : first.Point → first.Point → first.Point
  scale : first.Point → Scalar → first.Point
  /-- The coordinates of a point, none at infinity. -/
  coordinates? : first.Point → Option (first.Coordinate × first.Coordinate)
  encode? : first.Coordinate → Option Bytes
  /-- Whether the product of the pairings of all pairs is one. -/
  pairsToOne : List (first.Point × second.Point) → Bool

/-- What the contracts take from elsewhere. -/
structure Library where
  keccak : Bytes → Bytes
  sha256 : Bytes → Bytes
  ripemd160 : Bytes → Bytes
  signatures : SignatureScheme
  /-- The power of a base to an exponent, modulo a number. -/
  power : Bytes → Bytes → Bytes → Bytes
  curve : PairingCurve
  /-- Whether a proof shows that the polynomial behind a commitment has a value at a point. -/
  proves : (commitment point value proof : Bytes) → Bool

open Crypto Crypto.Bn254

/-- Signatures on secp256k1. -/
def SignatureScheme.secp256k1 : SignatureScheme where
  Signature := Secp256k1.Signature
  signature? := Secp256k1.signature?
  normalize? := Secp256k1.normalize?
  recoverKey? := Secp256k1.recoverKey?

/-- The points over a field that pass a test, and the one at infinity. -/
def PointGroup.ofField (F : Type) [FieldOps F] (member : Crypto.Point F → Bool) : PointGroup where
  Coordinate := F
  Point := Crypto.Point F
  isZero x := x == 0
  infinity := .infinity
  isInfinity
    | .infinity => true
    | .affine _ _ => false
  point? x y := if member (.affine x y) then some (.affine x y) else none

/-- The curve bn254. A scalar is reduced by the order of the groups. -/
def PairingCurve.bn254 : PairingCurve where
  first := .ofField Fp (Crypto.Point.onCurve curveB)
  second := .ofField Fp2 inG2
  Scalar := Nat
  coordinate? b := if b.toNat < fieldPrime then some (residue b.toNat) else none
  extend re im := ⟨re, im⟩
  scalar? b := some (b.toNat % order)
  add := Crypto.Point.add
  scale p n := p.scale n
  coordinates?
    | .infinity => none
    | .affine x y => some (x, y)
  encode? x := some (Bytes.ofNat 32 x.val)
  pairsToOne := pairingProductIsOne

/-- The library that the machine runs with. It has no setup to check the proofs of blobs against and
accepts none. -/
def Library.standard : Library where
  keccak b := Bytes.ofWord (Keccak.hash b)
  sha256 := Sha256.hash
  ripemd160 := Ripemd160.hash
  signatures := .secp256k1
  power := ModularPower.powerBytes
  curve := .bn254
  proves _ _ _ _ := false

end Evm.Precompile
