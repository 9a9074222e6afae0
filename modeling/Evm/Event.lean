import Evm.Frame
import Evm.Hex
import Evm.Instruction.Info
import Evm.Precompile.Error
import Evm.State.World
import Evm.Validity

/-!
# Events

What the machine reports about its own work. An event has a channel, a level, an optional message
and named fields.
-/

namespace Evm

/-- Why nothing could be executed, or not to the end. -/
inductive Failure where
  | transaction (error : InvalidTransaction)
  | state (error : StateError)
  deriving DecidableEq, Repr

/-- The name of the error in reports. -/
def Failure.name : Failure → String
  | transaction error => "Transaction." ++ error.name
  | state error => "State." ++ error.name

/-- What the error says. -/
def Failure.message : Failure → String
  | transaction error => "transaction validation error: " ++ error.message
  | state error => error.message

/-- Where an event comes from. -/
inductive Channel where
  | execution
  | context
  | state
  | tracer
  deriving DecidableEq, Repr

/-- How much an event matters. -/
inductive Level where
  | trace
  | debug
  | warn
  deriving DecidableEq, Repr

/-- The name of the level in reports. -/
def Level.name : Level → String
  | trace => "TRACE"
  | debug => "DEBUG"
  | warn => "WARN"

/-- What the tracer reports about one instruction. -/
structure TracedStep where
  depth : Nat
  pc : Nat
  name : String
  gas : Nat
  gasCost : Nat
  refund : Int
  stackHeight : Nat
  memorySize : Nat
  status : Status
  deriving DecidableEq, Repr

/-- An event. -/
inductive Event where
  | checkpoint (depth : Nat)
  | commit (depth : Nat)
  | revert (depth : Nat)
  | cleaned (count : Nat)
  | flushing (ops : Nat)
  | frameStart (depth : Nat) (caller : Address) (to? : Option Address) (value : Word)
    (gasLimit : Nat)
  | frameEnd (depth : Nat) (status : Status) (gasUsed : Nat)
  | precompileFailed (error : Precompile.Error) (address : Address)
  | createCollision (address : Address)
  | stateFailed (error : StateError)
  | revertFailed (error : CacheError)
  | transactionFailed (error : Failure)
  | transactionExecuted (success : Bool) (gasUsed : Nat)
  | step (traced : TracedStep)
  | log (address : Address) (topics : Nat)
  | call (scheme : CallScheme) (caller target : Address) (gasLimit : Nat)
  | callEnd (status : Status) (gasUsed : Nat)
  | create (salt? : Option Word) (caller : Address) (gasLimit : Nat)
  | createEnd (status : Status) (address? : Option Address)
  | selfDestruct (contract target : Address) (value : Word)
  deriving DecidableEq, Repr

/-- A value of a field. -/
inductive FieldValue where
  | number (n : Int)
  | flag (b : Bool)
  | text (s : String)
  deriving DecidableEq, Repr

namespace FieldValue

/-- A count. -/
def count (n : Nat) : FieldValue := number n

/-- A word in decimal. -/
def word (w : Word) : FieldValue := text (toString w.toNat)

/-- An address in its checksum spelling. -/
def address (a : Address) : FieldValue := text (Hex.checksumAddress a)

/-- An address that may be missing, in lower-case digits. -/
def address? : Option Address → FieldValue
  | some a => text ("Some(0x" ++ Hex.encode (Bytes.ofAddress a) ++ ")")
  | none => text "None"

/-- A status by its name. -/
def status (s : Status) : FieldValue := text s.name

/-- The scheme of a creation. -/
def createScheme : Option Word → FieldValue
  | none => text "Create"
  | some salt => text ("Create2 \x7b salt: " ++ toString salt.toNat ++ " \x7d")

end FieldValue

namespace Event

/-- Where the event comes from. -/
def channel : Event → Channel
  | checkpoint _ | commit _ | revert _ | cleaned _ => .context
  | flushing _ => .state
  | frameStart .. | frameEnd .. | precompileFailed .. | createCollision _ | stateFailed _
  | revertFailed _ | transactionFailed _ | transactionExecuted .. => .execution
  | step _ | log .. | call .. | callEnd .. | create .. | createEnd .. | selfDestruct .. => .tracer

/-- How much the event matters. -/
def level : Event → Level
  | checkpoint _ | commit _ | revert _ | step _ => .trace
  | stateFailed _ | revertFailed _ => .warn
  | _ => .debug

/-- What the event says. -/
def message? : Event → Option String
  | checkpoint _ => some "checkpoint"
  | commit _ => some "commit"
  | revert _ => some "revert"
  | cleaned _ => some "deleted empty touched accounts"
  | flushing _ => some "flushing state"
  | frameStart .. => some "frame start"
  | frameEnd .. => some "frame end"
  | precompileFailed .. => some "precompile failed"
  | createCollision _ => some "create collision"
  | stateFailed _ => some "state access failed, aborting transaction"
  | revertFailed _ => some "checkpoint revert failed"
  | transactionFailed _ => some "transaction failed"
  | transactionExecuted .. => some "transaction executed"
  | step _ => none
  | log .. => some "log"
  | call .. => some "call"
  | callEnd .. => some "call end"
  | create .. => some "create"
  | createEnd .. => some "create end"
  | selfDestruct .. => some "selfdestruct"

/-- The fields of the event. -/
def fields : Event → List (String × FieldValue)
  | checkpoint depth | commit depth | revert depth => [("depth", .count depth)]
  | cleaned count => [("count", .count count)]
  | flushing ops => [("ops", .count ops)]
  | frameStart depth caller to? value gasLimit =>
    [("depth", .count depth), ("caller", .address caller), ("to", .address? to?),
      ("value", .word value), ("gas_limit", .count gasLimit)]
  | frameEnd depth status gasUsed =>
    [("depth", .count depth), ("result", .status status), ("gas_used", .count gasUsed)]
  | precompileFailed error address =>
    [("error", .text error.message), ("address", .address address)]
  | createCollision address => [("address", .address address)]
  | stateFailed error => [("error", .text error.message)]
  | revertFailed error => [("error", .text error.message)]
  | transactionFailed error => [("error", .text error.message)]
  | transactionExecuted success gasUsed =>
    [("success", .flag success), ("gas_used", .count gasUsed)]
  | step s =>
    [("depth", .count s.depth), ("pc", .count s.pc), ("op", .text s.name), ("gas", .count s.gas),
      ("gas_cost", .count s.gasCost), ("refund", .number s.refund),
      ("stack", .count s.stackHeight), ("memory", .count s.memorySize),
      ("result", .status s.status)]
  | log address topics => [("address", .address address), ("topics", .count topics)]
  | call scheme caller target gasLimit =>
    [("scheme", .text scheme.name), ("caller", .address caller), ("target", .address target),
      ("gas_limit", .count gasLimit)]
  | callEnd status gasUsed => [("result", .status status), ("gas_used", .count gasUsed)]
  | create salt? caller gasLimit =>
    [("scheme", .createScheme salt?), ("caller", .address caller), ("gas_limit", .count gasLimit)]
  | createEnd status address? => [("result", .status status), ("address", .address? address?)]
  | selfDestruct contract target value =>
    [("contract", .address contract), ("target", .address target), ("value", .word value)]

end Event

end Evm
