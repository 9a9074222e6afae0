import Evm.Precompile.Basic

/-!
# Point evaluation of blobs

The input is a versioned hash, a point, a value, the commitment to a polynomial, and a proof that
the polynomial has the value at the point.
-/

namespace Evm.Precompile.PointEvaluation

/-- The price. -/
def price : Nat := 50000

/-- The length of an input. -/
def inputSize : Nat := 192

/-- The versioned hash of a commitment: its hash, the first byte replaced by the version. -/
def versionedHash (sha256 : Bytes → Bytes) (commitment : Bytes) : Bytes :=
  #[0x01] ++ (sha256 commitment).drop 1

/-- The number of field elements of a blob and the prime of the field. -/
def fieldDescription : Bytes :=
  Bytes.ofNat 32 4096 ++
    Bytes.ofNat 32 0x73eda753299d7d483339d80809a1d80553bda402fffe5bfeffffffff00000001

/-- Checks the length, the versioned hash and the proof, in that order. -/
def run (sha256 : Bytes → Bytes) (proves : (commitment point value proof : Bytes) → Bool)
    (input : Bytes) (gasLimit : Nat) : Except Error Output := do
  charge price gasLimit
  let commitment := input.extract 96 144
  if input.size ≠ inputSize then throw .blobInputLength
  else if versionedHash sha256 commitment ≠ input.extract 0 32 then throw .blobCommitment
  else if proves commitment (input.extract 32 64) (input.extract 64 96) (input.extract 144 192) then
    return { gasUsed := price, bytes := fieldDescription }
  else throw .blobProof

end Evm.Precompile.PointEvaluation
