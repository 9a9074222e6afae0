import Evm.Execution.Arithmetic
import Evm.Execution.Call
import Evm.Execution.Control
import Evm.Execution.Data
import Evm.Execution.State

/-!
# Running a frame

One step decodes an instruction, pays its base price, moves on to the next position and runs the
instruction. A frame takes steps until one of them ends it.
-/

namespace Evm

variable {σ : Type}

/-- Runs the instruction, its base price being paid. -/
def Instruction.run (host : Host σ) : Instruction → Exec σ Unit
  | stop => Exec.halt .stop
  | unary op => Exec.unary op
  | binary op => Exec.binary op
  | ternary op => Exec.ternary op
  | exp => Exec.exp
  | keccak256 => Exec.keccak256
  | frameField field => Exec.pushFrameField field
  | envField field => Exec.pushEnvField host field
  | accountField field => Exec.accountField host field
  | selfBalance => Exec.selfBalance host
  | callDataLoad => Exec.callDataLoad
  | copy source => Exec.copy source
  | extCodeCopy => Exec.extCodeCopy host
  | blockHash => Exec.blockHash host
  | blobHash => Exec.blobHash host
  | pop => discard (Exec.pop 1)
  | mload => Exec.mload
  | mstore => Exec.mstore
  | mstore8 => Exec.mstore8
  | mcopy => Exec.mcopy
  | sload => Exec.sload host
  | sstore => Exec.sstore host
  | tload => Exec.tload host
  | tstore => Exec.tstore host
  | jump => Exec.jump
  | jumpI => Exec.jumpI
  | jumpDest => pure ()
  | beginSub => Exec.halt .invalidBeginSub
  | returnSub => Exec.returnSub
  | jumpSub => Exec.jumpSub
  | push size => Exec.pushImmediate size
  | dup depth => Exec.dup depth
  | swap depth => Exec.swap depth
  | log topics => Exec.log host topics
  | create salted => Exec.create host salted
  | call scheme => Exec.call host scheme
  | ret => Exec.finish .ret
  | revert => Exec.finish .revert
  | invalid => Exec.halt .invalidOpcode
  | selfDestruct => Exec.selfDestruct host

namespace Exec

/-- Runs the next instruction of the frame. -/
def next (host : Host σ) : Exec σ Unit := do
  let f ← frame
  match f.instruction? with
  | none => halt .unknownOpcode
  | some i =>
    if i.isActive f.features then
      charge (Gas.base f.features i)
      update fun f => { f with pc := f.pc + 1 }
      i.run host
    else halt .inactiveOpcode

/-- Runs a program on a frame, whose status tells how it went. -/
def perform (program : Exec σ Unit) (state : Frame × σ) : Frame × σ :=
  match program.run state with
  | (.ok (), state) => state
  | (.error status, (f, s)) => ({ f with status }, s)

end Exec

/-- Takes one step. The host sees the frame before and after it, and may stop it before. -/
def Host.step (host : Host σ) (f : Frame) (s : σ) : Frame × σ :=
  let (f, s) := host.beforeStep f s
  if f.isRunning then
    let (f, s) := (Exec.next host).perform (f, s)
    host.afterStep f s
  else (f, s)

/-- Takes steps until the frame ends, at most `fuel` of them. -/
def Host.steps (host : Host σ) : Nat → Frame → σ → Frame × σ
  | 0, f, s => (f, s)
  | fuel + 1, f, s =>
    if f.isRunning then
      let (f, s) := host.step f s
      host.steps fuel f s
    else (f, s)

/-- Runs the frame to its end. Every step but the last uses up gas, so there are not more of them
than there is gas. -/
def Host.run (host : Host σ) (f : Frame) (s : σ) : Frame × σ :=
  host.steps (f.gas.remaining + 1) f s

end Evm
