import Evm.Precompile.Basic
import Evm.Precompile.Library

/-!
# Arithmetic on bn254

Points are written as their big-endian coordinates, the point at infinity as zeros. In a coordinate
of the extension the imaginary part comes first. Addition and multiplication read their input as if
it went on with zero bytes; the pairing check insists on whole pairs.
-/

namespace Evm.Precompile.Bn254

/-- Number of bytes of two points of the first group. -/
def addSize : Nat := 128

/-- Number of bytes of a point of the first group and a number. -/
def mulSize : Nat := 96

/-- Number of bytes of a point of each group. -/
def pairSize : Nat := 192

/-! ## Points -/

section

variable (curve : PairingCurve)

/-- Reads a coordinate. -/
def coordinate (input : Bytes) (start : Nat) : Except Error curve.first.Coordinate :=
  orFail .bn254Coordinate (curve.coordinate? (input.extract start (start + 32)))

/-- Reads a coordinate of the extension. -/
def coordinate2 (input : Bytes) (start : Nat) : Except Error curve.second.Coordinate := do
  let im ← coordinate curve input start
  let re ← coordinate curve input (start + 32)
  return curve.extend re im

/-- The point with the given coordinates. -/
def pointAt (group : PointGroup) (x y : group.Coordinate) : Except Error group.Point :=
  if group.isZero x && group.isZero y then .ok group.infinity
  else orFail .bn254Point (group.point? x y)

/-- Reads a point of the first group. -/
def point (input : Bytes) (start : Nat) : Except Error curve.first.Point := do
  let x ← coordinate curve input start
  let y ← coordinate curve input (start + 32)
  pointAt curve.first x y

/-- Reads a point of the second group. -/
def point2 (input : Bytes) (start : Nat) : Except Error curve.second.Point := do
  let x ← coordinate2 curve input start
  let y ← coordinate2 curve input (start + 64)
  pointAt curve.second x y

/-- Reads a number to multiply with. -/
def scalar (input : Bytes) (start : Nat) : Except Error curve.Scalar :=
  orFail .bn254Coordinate (curve.scalar? (input.extract start (start + 32)))

/-- Writes a coordinate. -/
def encodeCoordinate (x : curve.first.Coordinate) : Except Error Bytes :=
  orFail .bn254Coordinate (curve.encode? x)

/-- Writes a point of the first group. -/
def encode (p : curve.first.Point) : Except Error Bytes :=
  match curve.coordinates? p with
  | none => .ok (Array.replicate 64 0)
  | some (x, y) => return (← encodeCoordinate curve x) ++ (← encodeCoordinate curve y)

end

/-! ## Contracts -/

section

variable (curve : PairingCurve)

/-- Adds two points. -/
def add (price : Nat) (input : Bytes) (gasLimit : Nat) : Except Error Output := do
  charge price gasLimit
  let input := input.fitRight addSize
  let p ← point curve input 0
  let q ← point curve input 64
  return { gasUsed := price, bytes := ← encode curve (curve.add p q) }

/-- Multiplies a point by a number. -/
def mul (price : Nat) (input : Bytes) (gasLimit : Nat) : Except Error Output := do
  charge price gasLimit
  let input := input.fitRight mulSize
  let p ← point curve input 0
  let n ← scalar curve input 64
  return { gasUsed := price, bytes := ← encode curve (curve.scale p n) }

/-- Reads the pair at place `i`. -/
def pair (input : Bytes) (i : Nat) : Except Error (curve.first.Point × curve.second.Point) := do
  let p ← point curve input (pairSize * i)
  let q ← point2 curve input (pairSize * i + 64)
  return (p, q)

/-- Whether the product of the pairings of the pairs that an input spells is one. Pairs with a point
at infinity contribute nothing. -/
def pairsToOne (input : Bytes) : Except Error Bool :=
  if input.isEmpty then .ok true
  else do
    let pairs ← (List.range (input.size / pairSize)).mapM (pair curve input)
    let pairs := pairs.filter fun (p, q) => !curve.first.isInfinity p && !curve.second.isInfinity q
    return pairs.isEmpty || curve.pairsToOne pairs

/-- Checks the pairings of any number of pairs, which are paid by the pair. -/
def pairing (perPair base : Nat) (input : Bytes) (gasLimit : Nat) : Except Error Output := do
  let gasUsed := input.size / pairSize * perPair + base
  charge gasUsed gasLimit
  if input.size % pairSize ≠ 0 then throw .bn254PairLength
  else return { gasUsed, bytes := Bytes.ofWord (Word.ofBool (← pairsToOne curve input)) }

end

end Evm.Precompile.Bn254
