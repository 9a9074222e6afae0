import Evm.Bytes

/-!
# The transaction

What its sender signed.
-/

namespace Evm

/-- An account and some of its slots that a transaction announces to access. -/
structure AccessListItem where
  address : Address
  slots : List Word
  deriving DecidableEq, Repr

/-- A transaction. -/
structure Transaction where
  caller : Address := 0
  gasLimit : Nat := 30000000
  /-- Price of gas; the highest price accepted if there is a priority fee. -/
  gasPrice : Word := 0
  /-- What the beneficiary gets per gas on top of the base fee. -/
  priorityFee? : Option Word := none
  /-- The account that is called, none for a creation. -/
  to? : Option Address := some 0
  value : Word := 0
  /-- Call data or init code. -/
  data : Bytes := #[]
  nonce : UInt64 := 0
  chainId? : Option Nat := none
  accessList : List AccessListItem := []
  blobHashes : List Hash := []
  deriving DecidableEq, Repr

namespace Transaction

instance : Inhabited Transaction := ⟨{}⟩

/-- Whether a contract is created. -/
def isCreate (tx : Transaction) : Bool := tx.to?.isNone

/-- Price that the sender pays per gas. -/
def effectiveGasPrice (tx : Transaction) (baseFee : Word) : Word :=
  match tx.priorityFee? with
  | some fee =>
    let wanted := Word.satAdd baseFee fee
    if tx.gasPrice ≤ wanted then tx.gasPrice else wanted
  | none => tx.gasPrice

/-- Number of slots in the access list. -/
def accessListSlots (tx : Transaction) : Nat := (tx.accessList.flatMap (·.slots)).length

end Transaction

end Evm
