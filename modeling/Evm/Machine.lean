import Evm.Inspector
import Evm.Message
import Evm.State.Ledger

/-!
# The machine

The state in which messages run: the context, the state of the inspector, and what belongs to the
frame that is running. A failure of the store is parked until that frame stops, because an
instruction can only halt its frame.
-/

namespace Evm

/-- The state of the machine, with an inspector whose states are `ι`. -/
structure Machine (ι : Type) where
  context : Context
  observer : ι
  /-- What the running frame has collected. -/
  substate : Substate := {}
  /-- How deep the running frame is nested. -/
  depth : Nat := 0
  /-- A failure that the running frame has met. -/
  parked? : Option StateError := none

/-- Operations of the machine that may fail. What they did before failing stays done. -/
abbrev MachineM (ε ι : Type) := ExceptT ε (StateM (Machine ι))

namespace Machine

variable {ι ε α : Type}

/-- A machine on a context. -/
def start (context : Context) (observer : ι) : Machine ι := { context, observer }

/-- The active proposals. -/
def features (m : Machine ι) : Features := m.context.features

/-- Reports an event. -/
def report (e : Event) : MachineM ε ι Unit :=
  modify fun m => { m with context := m.context.report e }

/-- Does something on the context. -/
def onContext (op : ContextM ε α) : MachineM ε ι α := fun m =>
  let (r, context) := op.run m.context
  (r, { m with context })

/-- Does something on the world. -/
def onWorld (op : WorldM α) : MachineM StateError ι α := onContext (Context.onWorld op)

/-- Changes the journal. -/
def onJournal (f : Journal → Journal) : MachineM ε ι Unit :=
  modify fun m => { m with context := { m.context with journal := f m.context.journal } }

/-- Lets the inspector act. -/
def inspect (hook : Hook ι α) (m : Machine ι) : α × Machine ι :=
  let (a, (context, observer)) := hook.run (m.context, m.observer)
  (a, { m with context, observer })

/-- Parks a failure. -/
def park (m : Machine ι) (e : StateError) : Machine ι :=
  { m with context := m.context.report (.stateFailed e), parked? := some e }

/-- Runs an operation in a checkpoint, which is committed if the result is one to `keep` and
reverted otherwise, and if the operation fails. -/
def guarded (ofCache : CacheError → ε) (keep : α → Bool) (body : MachineM ε ι α) :
    MachineM ε ι α := fun m =>
  match body.run { m with context := m.context.checkpoint } with
  | (.error e, m) => (.error e, { m with context := m.context.abandon })
  | (.ok a, m) =>
    if keep a then
      match Context.commit.run m.context with
      | (.ok (), context) => (.ok a, { m with context })
      | (.error e, context) => (.error (ofCache e), { m with context })
    else (.ok a, { m with context := m.context.abandon })

end Machine

end Evm
