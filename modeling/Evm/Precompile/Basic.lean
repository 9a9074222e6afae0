import Evm.Bytes
import Evm.Precompile.Error

/-!
# Outputs and charges of precompiled contracts

Every contract works out what it costs, fails if it was given less gas than that, and says in its
output how much it used.
-/

namespace Evm.Precompile

/-- What a precompiled contract gives back. -/
structure Output where
  gasUsed : Nat
  bytes : Bytes
  deriving DecidableEq, Repr

/-- Fails if the gas does not cover the price. -/
def charge (price gasLimit : Nat) : Except Error Unit :=
  if gasLimit < price then .error .outOfGas else .ok ()

/-- Fails with `e` if there is nothing. -/
def orFail {α : Type} (e : Error) : Option α → Except Error α
  | some a => .ok a
  | none => .error e

/-- Price of `len` bytes at `word` per word on top of `base`. -/
def linearPrice (base word len : Nat) : Nat := (len + 31) / 32 * word + base

/-- A contract that has an answer to every input and is paid by the length of the input. -/
def linear (base word : Nat) (answer : Bytes → Bytes) (input : Bytes) (gasLimit : Nat) :
    Except Error Output := do
  let gasUsed := linearPrice base word input.size
  charge gasUsed gasLimit
  return { gasUsed, bytes := answer input }

end Evm.Precompile
