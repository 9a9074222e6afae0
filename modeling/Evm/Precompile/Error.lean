/-!
# Failures of precompiled contracts
-/

namespace Evm.Precompile

/-- Why a precompiled contract fails. -/
inductive Error where
  | outOfGas
  | blake2Length
  | blake2Flag
  | modExpBaseLength
  | modExpExponentLength
  | modExpModulusLength
  /-- A coordinate is not below the prime of the field. -/
  | bn254Coordinate
  /-- The coordinates belong to no point of the group. -/
  | bn254Point
  | bn254PairLength
  | blobInputLength
  /-- The commitment does not have the versioned hash. -/
  | blobCommitment
  | blobProof
  deriving DecidableEq, Repr

/-- The name of the error in reports. -/
def Error.name : Error → String
  | outOfGas => "OutOfGas"
  | blake2Length => "Blake2WrongLength"
  | blake2Flag => "Blake2WrongFinalIndicatorFlag"
  | modExpBaseLength => "ModexpBaseOverflow"
  | modExpExponentLength => "ModexpExpOverflow"
  | modExpModulusLength => "ModexpModOverflow"
  | bn254Coordinate => "Bn128FieldPointNotAMember"
  | bn254Point => "Bn128AffineGFailedToCreate"
  | bn254PairLength => "Bn128PairLength"
  | blobInputLength => "BlobInvalidInputLength"
  | blobCommitment => "InvalidCommitment"
  | blobProof => "InvalidProof"

/-- What the error says. -/
def Error.message : Error → String
  | outOfGas => "out of gas"
  | blake2Length => "wrong input length for blake2"
  | blake2Flag => "wrong final indicator flag for blake2"
  | modExpBaseLength => "modexp base overflow"
  | modExpExponentLength => "modexp exp overflow"
  | modExpModulusLength => "modexp mod overflow"
  | bn254Coordinate => "field point not a member of bn254 curve"
  | bn254Point => "failed to create affine g point for bn254"
  | bn254PairLength => "bn254 invalid pair length"
  | blobInputLength => "invalid blob input length"
  | blobCommitment => "mismatched blob version"
  | blobProof => "verifying blob kzg proof failed"

end Evm.Precompile
