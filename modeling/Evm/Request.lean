import Evm.Address
import Evm.Env.Transaction
import Evm.Frame

/-!
# Calls and creations

What a frame asks of its host when it calls an account or creates a contract, and what it is told
afterwards.
-/

namespace Evm

/-- The value of a call. -/
inductive CallValue where
  /-- Value that moves from the caller to the target. -/
  | transfer (value : Word)
  /-- Value that the called code sees but that does not move. -/
  | apparent (value : Word)
  deriving DecidableEq, Repr

namespace CallValue

/-- The value that the called code sees. -/
def amount : CallValue → Word
  | transfer value => value
  | apparent value => value

/-- Whether value moves. -/
def moves : CallValue → Bool
  | transfer value => value != 0
  | apparent _ => false

end CallValue

/-- A part of memory. -/
structure Window where
  start : Nat := 0
  size : Nat := 0
  deriving DecidableEq, Repr

/-- A call. -/
structure CallRequest where
  scheme : CallScheme
  caller : Address
  /-- The account whose storage and balance the code acts on. -/
  target : Address
  /-- The account that the code is loaded from. -/
  codeAddress : Address
  input : Bytes
  gasLimit : Nat
  value : CallValue
  isStatic : Bool
  /-- Where the caller wants the output. -/
  out : Window
  deriving DecidableEq, Repr

/-- A creation. -/
structure CreateRequest where
  caller : Address
  /-- Takes part in the address in place of the nonce. -/
  salt? : Option Word
  value : Word
  initCode : Bytes
  gasLimit : Nat
  deriving DecidableEq, Repr

/-- Answer to a call. -/
structure CallResponse where
  outcome : Outcome
  out : Window
  deriving DecidableEq, Repr

/-- Answer to a creation. -/
structure CreateResponse where
  outcome : Outcome
  /-- The new contract, if it was created. -/
  address? : Option Address
  deriving DecidableEq, Repr

/-- The address that a creation gives, at that nonce of the caller. -/
def newAddress (caller : Address) (nonce : UInt64) (salt? : Option Word) (initCode : Bytes) :
    Address :=
  match salt? with
  | none => Address.created caller nonce
  | some salt => Address.createdSalted caller salt initCode

/-- The address that the creation gives, at that nonce of the caller. -/
def CreateRequest.newAddress (r : CreateRequest) (nonce : UInt64) : Address :=
  Evm.newAddress r.caller nonce r.salt? r.initCode

/-- The call that a transaction makes, if it makes one. -/
def CallRequest.ofTransaction? (tx : Transaction) (gasLimit : Nat) : Option CallRequest :=
  tx.to?.map fun target =>
    { scheme := .call, caller := tx.caller, target, codeAddress := target, input := tx.data,
      gasLimit, value := .transfer tx.value, isStatic := false, out := {} }

/-- The creation that a transaction makes, if it makes one. -/
def CreateRequest.ofTransaction? (tx : Transaction) (gasLimit : Nat) : Option CreateRequest :=
  if tx.isCreate then
    some { caller := tx.caller, salt? := none, value := tx.value, initCode := tx.data, gasLimit }
  else none

end Evm
