/-!
# Frame status

What an instruction did to its frame, and how a frame ended. Ends fall into three classes: success,
revert (the effects are undone, unused gas is kept) and exceptional halt (the effects are undone and
all gas is used up).
-/

namespace Evm

/-- Whether a frame is running, or how it ended. -/
inductive Status where
  | running
  /-- A `STOP` or the end of the code. -/
  | stop
  | ret
  | selfDestruct
  | revert
  /-- The limit on nested calls is reached. -/
  | callTooDeep
  /-- The sender holds less than the value it sends. -/
  | outOfFunds
  | outOfGas
  /-- There is no gas for the memory that the instruction needs. -/
  | memoryOutOfGas
  | precompileOutOfGas
  /-- An operand is too large to be a count. -/
  | invalidOperand
  | unknownOpcode
  /-- The proposal that introduced the opcode is not active. -/
  | inactiveOpcode
  | valueCallInStatic
  | stateChangeInStatic
  | invalidOpcode
  | invalidJump
  /-- A `JUMPSUB` to a place where no subroutine begins. -/
  | invalidJumpSub
  /-- A `BEGINSUB` reached without a jump. -/
  | invalidBeginSub
  /-- A `RETURNSUB` outside of a subroutine. -/
  | invalidReturnSub
  | stackUnderflow
  | stackOverflow
  /-- Return data read past its end. -/
  | outOfOffset
  | createCollision
  | precompileFailure
  | nonceOverflow
  | codeTooLarge
  /-- Deployed code starts with the byte 0xEF. -/
  | reservedCode
  | initCodeTooLarge
  /-- There is no gas to pay for the deployed code. -/
  | depositOutOfGas
  /-- The state could not be read or written. -/
  | fatal
  deriving DecidableEq, Repr, Inhabited

namespace Status

/-- Every status, by class. -/
def all : List Status :=
  [running, stop, ret, selfDestruct, revert, callTooDeep, outOfFunds, outOfGas, memoryOutOfGas,
    precompileOutOfGas, invalidOperand, unknownOpcode, inactiveOpcode, valueCallInStatic,
    stateChangeInStatic, invalidOpcode, invalidJump, invalidJumpSub, invalidBeginSub,
    invalidReturnSub, stackUnderflow, stackOverflow, outOfOffset, createCollision,
    precompileFailure, nonceOverflow, codeTooLarge, reservedCode, initCodeTooLarge,
    depositOutOfGas, fatal]

/-- The name of the status in reports. -/
def name : Status → String
  | running => "Continue"
  | stop => "Stop"
  | ret => "Return"
  | selfDestruct => "SelfDestruct"
  | revert => "Revert"
  | callTooDeep => "CallTooDeep"
  | outOfFunds => "OutOfFunds"
  | outOfGas => "OutOfGas"
  | memoryOutOfGas => "MemoryOOG"
  | precompileOutOfGas => "PrecompileOOG"
  | invalidOperand => "InvalidOperandOOG"
  | unknownOpcode => "OpcodeNotFound"
  | inactiveOpcode => "NotActivated"
  | valueCallInStatic => "CallNotAllowedInsideStatic"
  | stateChangeInStatic => "StateChangeDuringStaticCall"
  | invalidOpcode => "InvalidFEOpcode"
  | invalidJump => "InvalidJump"
  | invalidJumpSub => "InvalidJumpSub"
  | invalidBeginSub => "InvalidBeginSub"
  | invalidReturnSub => "InvalidReturnSub"
  | stackUnderflow => "StackUnderflow"
  | stackOverflow => "StackOverflow"
  | outOfOffset => "OutOfOffset"
  | createCollision => "CreateCollision"
  | precompileFailure => "PrecompileError"
  | nonceOverflow => "NonceOverflow"
  | codeTooLarge => "CreateContractSizeLimit"
  | reservedCode => "CreateContractStartingWithEF"
  | initCodeTooLarge => "CreateInitCodeSizeLimit"
  | depositOutOfGas => "CodeStoreOutOfGas"
  | fatal => "FatalExternalError"

/-- The status of that name. -/
def ofName? (s : String) : Option Status := all.find? (·.name == s)

/-- The number of the status in reports. Each class counts from a number of its own. -/
def code : Status → Nat
  | running => 0x00
  | stop => 0x01
  | ret => 0x02
  | selfDestruct => 0x03
  | revert => 0x10
  | callTooDeep => 0x11
  | outOfFunds => 0x12
  | outOfGas => 0x50
  | memoryOutOfGas => 0x51
  | precompileOutOfGas => 0x52
  | invalidOperand => 0x53
  | unknownOpcode => 0x54
  | inactiveOpcode => 0x55
  | valueCallInStatic => 0x56
  | stateChangeInStatic => 0x57
  | invalidOpcode => 0x58
  | invalidJump => 0x59
  | invalidJumpSub => 0x5a
  | invalidBeginSub => 0x5b
  | invalidReturnSub => 0x5c
  | stackUnderflow => 0x5d
  | stackOverflow => 0x5e
  | outOfOffset => 0x5f
  | createCollision => 0x60
  | precompileFailure => 0x61
  | nonceOverflow => 0x62
  | codeTooLarge => 0x63
  | reservedCode => 0x64
  | initCodeTooLarge => 0x65
  | depositOutOfGas => 0x66
  | fatal => 0x67

/-- Whether nothing has gone wrong. -/
def isOk : Status → Bool
  | running | stop | ret | selfDestruct => true
  | _ => false

/-- Whether the end keeps the unused gas but not the effects. -/
def isRevert : Status → Bool
  | revert | callTooDeep | outOfFunds => true
  | _ => false

/-- Whether the end keeps neither gas nor effects. -/
def isError (s : Status) : Bool := !s.isOk && !s.isRevert

/-- Whether the whole execution has to stop. -/
def isFatal (s : Status) : Bool := s == fatal

end Status

end Evm
