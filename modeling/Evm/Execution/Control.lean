import Evm.Execution.Basic

/-!
# Control flow

Jumps, subroutines and the instructions that end a frame.
-/

namespace Evm.Exec

variable {σ : Type}

/-- Goes on at a jump destination. -/
def jumpTo (target : Word) : Exec σ Unit := do
  let target ← count target .invalidJump
  if (← frame).code.jumpTable.isJumpDest target then update fun f => { f with pc := target }
  else halt .invalidJump

/-- Jumps. -/
def jump : Exec σ Unit := do
  jumpTo (← pop1)

/-- Jumps unless a condition is zero. -/
def jumpI : Exec σ Unit := do
  let (target, condition) ← pop2
  if condition ≠ 0 then jumpTo target

/-- Enters a subroutine. -/
def jumpSub : Exec σ Unit := do
  let target ← count (← pop1) .invalidJumpSub
  let f ← frame
  if !f.code.jumpTable.isBeginSub target then halt .invalidJumpSub
  else if Frame.returnStackLimit ≤ f.returnStack.length then halt .stackOverflow
  else update fun f => { f with returnStack := f.pc :: f.returnStack, pc := target + 1 }

/-- Leaves a subroutine. -/
def returnSub : Exec σ Unit := do
  match (← frame).returnStack with
  | [] => halt .invalidReturnSub
  | pc :: returnStack => update fun f => { f with pc, returnStack }

/-- Ends the frame with a part of memory as output. -/
def finish (status : Status) : Exec σ Unit := do
  let (start, len) ← pop2
  let output ← readMemory start (← count len)
  update fun f => { f with output }
  halt status

end Evm.Exec
