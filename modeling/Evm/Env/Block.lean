import Evm.Count
import Evm.Word

/-!
# The block

What instructions can learn about the block that their transaction is part of.
-/

namespace Evm

/-- A block. -/
structure Block where
  number : Nat := 0
  beneficiary : Address := 0
  timestamp : Nat := 1
  gasLimit : Nat := Count.max
  baseFee : Word := 0
  difficulty : Word := 0
  /-- Randomness of the beacon, from the merge on. -/
  randomness? : Option Hash := some 0
  blobBaseFee : Word := 1
  /-- Hashes of earlier blocks by number. -/
  hashes : List (Nat × Hash) := []
  deriving DecidableEq, Repr

namespace Block

instance : Inhabited Block := ⟨{}⟩

/-- How many blocks back a hash can be read. -/
def hashHistory : Nat := 256

/-- Hash of the block with that number, zero unless it is one of the last 256 before this one. -/
def hashOf (b : Block) (number : Nat) : Hash :=
  if number < b.number ∧ b.number - number ≤ hashHistory then
    (b.hashes.lookup number).getD 0
  else 0

end Block

end Evm
