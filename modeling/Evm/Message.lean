import Std.Data.ExtTreeSet
import Evm.Host

/-!
# Messages and their results

A message is a call or a creation together with what the frame that runs it has to know about the
transaction: how deep it is nested, and which accounts have been destroyed and created so far. The
result tells what the frame added to these sets.
-/

namespace Evm

/-- A set of accounts. -/
abbrev AddressSet := Std.ExtTreeSet Address

/-- A call or a creation. -/
structure Message where
  caller : Address
  /-- The account whose storage and balance the code acts on, none for a creation. -/
  to? : Option Address
  /-- The account that the code is loaded from. -/
  codeAddress : Address := 0
  value : Word := 0
  /-- Call data or init code. -/
  data : Bytes := #[]
  gasLimit : Nat
  isStatic : Bool := false
  /-- The value does not move. -/
  isDelegate : Bool := false
  /-- Number of frames around the one of the message. -/
  depth : Nat := 0
  salt? : Option Word := none
  /-- Code to run in place of that of the code address. -/
  code? : Option Code := none
  destroyed : AddressSet := ∅
  created : AddressSet := ∅

namespace Message

/-- A call of an account. -/
def call (caller callee : Address) (value : Word) (data : Bytes) (gasLimit : Nat) : Message :=
  { caller, to? := some callee, codeAddress := callee, value, data, gasLimit }

/-- A creation. -/
def create (caller : Address) (value : Word) (initCode : Bytes) (gasLimit : Nat) : Message :=
  { caller, to? := none, value, data := initCode, gasLimit }

/-- The message that a transaction sends. -/
def ofTransaction (tx : Transaction) (gasLimit : Nat) : Message :=
  match tx.to? with
  | some callee => call tx.caller callee tx.value tx.data gasLimit
  | none => create tx.caller tx.value tx.data gasLimit

/-- The message of a call that a frame makes. -/
def ofCall (r : CallRequest) (depth : Nat) : Message where
  caller := r.caller
  to? := some r.target
  codeAddress := r.codeAddress
  value := r.value.amount
  data := r.input
  gasLimit := r.gasLimit
  isStatic := r.isStatic
  isDelegate := r.scheme == .delegateCall
  depth := depth

/-- The message of a creation that a frame makes. -/
def ofCreate (r : CreateRequest) (depth : Nat) : Message where
  caller := r.caller
  to? := none
  value := r.value
  data := r.initCode
  gasLimit := r.gasLimit
  depth := depth
  salt? := r.salt?

/-- Whether a contract is created. -/
def isCreate (m : Message) : Bool := m.to?.isNone

/-- Whether value moves. -/
def movesValue (m : Message) : Bool := !m.isDelegate && m.value != 0

/-- The address of the new contract, at that nonce of the caller. -/
def newAddress (m : Message) (nonce : UInt64) : Address :=
  Evm.newAddress m.caller nonce m.salt? m.data

/-- What the code of a call is to do. -/
def invocation (m : Message) (target : Address) (code : Code) (features : Features) :
    Invocation where
  code := code
  input := m.data
  address := target
  codeAddress := m.codeAddress
  caller := m.caller
  value := m.value
  isStatic := m.isStatic
  depth := m.depth
  features := features

/-- What the init code of a creation is to do. -/
def initInvocation (m : Message) (address : Address) (features : Features) : Invocation where
  code := Code.ofBytes m.data
  address := address
  codeAddress := address
  caller := m.caller
  value := m.value
  depth := m.depth
  features := features

end Message

/-- What a running frame collects. -/
structure Substate where
  logs : Array Log := #[]
  destroyed : AddressSet := ∅
  created : AddressSet := ∅

namespace Substate

instance : Inhabited Substate := ⟨{}⟩

/-- What a frame starts from. -/
def ofMessage (m : Message) : Substate := { destroyed := m.destroyed, created := m.created }

end Substate

/-- The result of a message. The sets hold what the frame and the frames below it added; they are
empty unless the frame succeeded. -/
structure FrameResult where
  outcome : Outcome
  logs : Array Log := #[]
  /-- The new contract, for a successful creation. -/
  address? : Option Address := none
  destroyed : AddressSet := ∅
  created : AddressSet := ∅

namespace FrameResult

/-- Whether the frame succeeded. -/
def isOk (r : FrameResult) : Bool := r.outcome.isOk

/-- The result with what the frame collected, which counts only if the frame succeeded. -/
def withSubstate (r : FrameResult) (message : Message) (s : Substate) : FrameResult :=
  if r.isOk then
    { r with
      logs := s.logs
      destroyed := s.destroyed \ message.destroyed
      created := s.created \ message.created }
  else r

end FrameResult

/-- What a frame has collected once a frame below it has ended. -/
def Substate.merge (s : Substate) (r : FrameResult) : Substate :=
  if r.isOk then
    { logs := s.logs ++ r.logs
      destroyed := s.destroyed ∪ r.destroyed
      created := s.created ∪ r.created }
  else s

end Evm
