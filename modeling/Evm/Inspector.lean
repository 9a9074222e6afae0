import Evm.Context
import Evm.Host

/-!
# Inspectors

An inspector is told what the machine does and may take part: it can change the frame before and
after an instruction, stop it, and answer a call or a creation in place of the machine. It has a
state of its own.
-/

namespace Evm

/-- What an inspector with states `ι` does at one point of the execution. -/
abbrev Hook (ι : Type) := StateM (Context × ι)

/-- An inspector. -/
structure Inspector (ι : Type) where
  /-- Sees a frame before its first instruction. -/
  start : Frame → Hook ι Frame := fun f => return f
  /-- Sees a frame before every instruction. If the frame is not running any more, the instruction
  is not run. -/
  beforeStep : Frame → Hook ι Frame := fun f => return f
  /-- Sees a frame after every instruction. -/
  afterStep : Frame → Hook ι Frame := fun f => return f
  log : Log → Hook ι Unit := fun _ => return
  /-- Sees a call before it runs. An answer takes the place of the call. -/
  call : CallRequest → Hook ι (CallRequest × Option CallResponse) := fun r => return (r, none)
  callEnd : CallRequest → CallResponse → Hook ι CallResponse := fun _ response => return response
  /-- Sees a creation before it runs. An answer takes the place of the creation. -/
  create : CreateRequest → Hook ι (CreateRequest × Option CreateResponse) :=
    fun r => return (r, none)
  createEnd : CreateRequest → CreateResponse → Hook ι CreateResponse :=
    fun _ response => return response
  /-- Sees the destroyed account, the beneficiary and the value that moves. -/
  selfDestruct : Address → Address → Word → Hook ι Unit := fun _ _ _ => return

/-- Reports an event. -/
def Hook.report {ι : Type} (e : Event) : Hook ι Unit := modify fun (c, i) => (c.report e, i)

/-- The inspector that does nothing. -/
def Inspector.silent : Inspector Unit := {}

/-- What the tracer remembers of the latest instruction, and the number of instructions. -/
structure Tracer where
  pc : Nat := 0
  opcode : UInt8 := 0
  gas : Nat := 0
  steps : Nat := 0
  deriving DecidableEq, Repr, Inhabited

namespace Tracer

/-- Remembers where the frame is. -/
def beforeStep (f : Frame) : Hook Tracer Frame := do
  modify fun (c, t) => (c, { t with pc := f.pc, opcode := f.opcode, gas := f.gas.remaining })
  return f

/-- Name of the remembered instruction under a feature set. -/
def instructionName (t : Tracer) (features : Features) : String :=
  ((Instruction.decode features t.opcode).map Instruction.name).getD "UNKNOWN"

/-- What is reported about an instruction that has left the frame as it is. -/
def traced (t : Tracer) (f : Frame) : TracedStep where
  depth := f.depth
  pc := t.pc
  name := t.instructionName f.features
  gas := t.gas
  gasCost := t.gas - f.gas.remaining
  refund := f.gas.refunded
  stackHeight := f.stack.height
  memorySize := f.memory.size
  status := f.status

/-- Counts and reports the instruction. -/
def afterStep (f : Frame) : Hook Tracer Frame := do
  let (_, t) ← get
  set ((← get).1, { t with steps := t.steps + 1 })
  Hook.report (.step (t.traced f))
  return f

/-- The inspector that reports every instruction, call, creation, log and destruction. -/
def inspector : Inspector Tracer where
  beforeStep := beforeStep
  afterStep := afterStep
  log entry := Hook.report (.log entry.address entry.topics.length)
  call r := do
    Hook.report (.call r.scheme r.caller r.target r.gasLimit)
    return (r, none)
  callEnd _ response := do
    Hook.report (.callEnd response.outcome.status response.outcome.gas.spent)
    return response
  create r := do
    Hook.report (.create r.salt? r.caller r.gasLimit)
    return (r, none)
  createEnd _ response := do
    Hook.report (.createEnd response.outcome.status response.address?)
    return response
  selfDestruct contract target value := Hook.report (.selfDestruct contract target value)

end Tracer

end Evm
