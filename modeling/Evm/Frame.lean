import Evm.Code
import Evm.Frame.Memory
import Evm.Frame.Stack
import Evm.Frame.Status
import Evm.Gas.Meter

/-!
# Frames

The state of one running piece of code: what it was called with, which never changes, and the
machine that runs it.
-/

namespace Evm

/-- What a frame is to do and on whose behalf. -/
structure Invocation where
  code : Code
  /-- Call data. -/
  input : Bytes := #[]
  /-- The account whose storage and balance the code acts on. -/
  address : Address := 0
  /-- The account that the code was loaded from. -/
  codeAddress : Address := 0
  caller : Address := 0
  value : Word := 0
  /-- State changes are forbidden. -/
  isStatic : Bool := false
  /-- Number of frames around this one. -/
  depth : Nat := 0
  features : Features

/-- A running frame. -/
structure Frame extends Invocation where
  /-- Position of the next instruction. -/
  pc : Nat := 0
  gas : Gas.Meter
  stack : Stack := .empty
  memory : Memory := {}
  /-- What the latest call gave back. -/
  returnData : Bytes := #[]
  /-- Where the open subroutines return to. -/
  returnStack : List Nat := []
  status : Status := .running
  /-- What the frame gives back. -/
  output : Bytes := #[]

namespace Frame

/-- The most subroutines that may be open. -/
def returnStackLimit : Nat := 1023

/-- A frame about to start. -/
def start (invocation : Invocation) (gasLimit : Nat) : Frame :=
  { invocation with gas := .full gasLimit }

/-- The byte of the next instruction. -/
def opcode (f : Frame) : UInt8 := f.code.byteAt f.pc

/-- The next instruction, active or not. -/
def instruction? (f : Frame) : Option Instruction := Instruction.decode f.features f.opcode

/-- Whether the frame goes on. -/
def isRunning (f : Frame) : Bool := f.status == .running

end Frame

/-- How a frame ended. -/
structure Outcome where
  status : Status
  output : Bytes := #[]
  gas : Gas.Meter
  deriving DecidableEq, Repr

namespace Outcome

/-- The end of a frame that uses up all its gas. -/
def halt (status : Status) (gasLimit : Nat) : Outcome := { status, gas := .empty gasLimit }

/-- The end of a frame that uses none of its gas. -/
def idle (status : Status) (gasLimit : Nat) : Outcome := { status, gas := .full gasLimit }

/-- Whether the effects of the frame are kept. -/
def isOk (o : Outcome) : Bool := o.status.isOk

end Outcome

namespace Frame

/-- How the frame has ended: an exceptional halt uses up all gas, and loses refunds and output. -/
def outcome (f : Frame) : Outcome :=
  if f.status.isError then
    { status := f.status, gas := f.gas.spendAll.setRefund 0 }
  else { status := f.status, output := f.output, gas := f.gas }

end Frame

end Evm
