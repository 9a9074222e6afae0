import Evm.Machine.Frame
import Evm.Machine.Settlement

/-!
# Transactions

Running a transaction from its checks to the writing of its effects, and the other ways to use the
machine: a single message, or a piece of code without a message.
-/

namespace Evm

/-- What a transaction did. -/
structure Receipt where
  result : ExecutionResult
  /-- What was written to the store. -/
  changes : Changeset
  destroyed : AddressSet
  created : AddressSet
  /-- Empty accounts that were removed. -/
  cleaned : List Address

namespace Machine

variable {ι α : Type}

/-- Runs an operation that fails with the store only. -/
def onState (op : MachineM StateError ι α) : MachineM Failure ι α := fun m =>
  let (r, m) := op.run m
  (r.mapError .state, m)

/-- Rejects the transaction if a check fails. -/
def require (check : Except InvalidTransaction α) : MachineM Failure ι α :=
  match check with
  | .ok a => return a
  | .error e => throw (.transaction e)

/-! ## Transactions -/

/-- Runs the message of a transaction and settles it, all its effects being still pending. -/
def settle [Ledger] (inspector : Inspector ι) (intrinsicGas : Nat) :
    MachineM Failure ι (FrameResult × Gas.Meter × List Address) := do
  let env := (← get).context.env
  let tx := env.transaction
  let sender ← onState (onWorld (World.accountOrEmpty tx.caller))
  require (env.checkSender sender)
  onJournal (Settlement.warmUp env ((Precompile.active env.features).map Precompile.address))
  onState (onContext Settlement.chargeSender)
  let frame ←
    onState (execute inspector (Message.ofTransaction tx (tx.gasLimit - intrinsicGas)))
  let gas := Gas.Meter.ofTransaction env.features tx.gasLimit frame.outcome
  onState (onContext (Settlement.reimburse gas))
  onState (onContext (Settlement.reward gas))
  onState (onContext (Settlement.deleteDestroyed frame.destroyed))
  let cleaned ← onState (onContext Context.cleanup)
  return (frame, gas, cleaned)

/-- Checks the transaction of the environment, runs it and writes its effects to the store. -/
def runTransaction [Ledger] (inspector : Inspector ι) : MachineM Failure ι Receipt := do
  let env := (← get).context.env
  require env.checkBlock
  let intrinsicGas ← require env.checkIntrinsicGas
  let (frame, gas, cleaned) ←
    guarded (.state ∘ .cache) (fun _ => true) (settle inspector intrinsicGas)
  let changes ← onState (onContext Context.flush)
  let result := ExecutionResult.ofFrame frame gas env.transaction.isCreate
  report (.transactionExecuted result.isSuccess result.gasUsed)
  return { result, changes, destroyed := frame.destroyed, created := frame.created, cleaned }

/-- The machine once a transaction is over, whatever came of it. -/
def finishTransaction (m : Machine ι) : Machine ι :=
  { m with
    context := { m.context with journal := {} }
    substate := {}
    depth := 0
    parked? := none }

/-- Runs a transaction. If it is rejected or the store fails, nothing changes. -/
def transact [Ledger] (inspector : Inspector ι) (tx : Transaction) : MachineM Failure ι Receipt := fun m =>
  let env := { m.context.env with transaction := tx }
  let (r, m) := (runTransaction inspector).run { m with context := { m.context with env } }
  let m := m.finishTransaction
  match r with
  | .ok receipt => (.ok receipt, m)
  | .error e => (.error e, { m with context := m.context.report (.transactionFailed e) })

/-! ## Messages and code -/

/-- Forgets a parked failure. -/
def clearParked (m : Machine ι) : Machine ι := { m with parked? := none }

/-- Runs a message. No fee is paid and nothing is written to the store. -/
def runMessage [Ledger] (inspector : Inspector ι) (message : Message) : MachineM Failure ι FrameResult :=
  fun m =>
    let (r, m) := (onState (execute inspector message)).run m
    (r, m.clearParked)

/-- What code that runs without a message is to do. Call data and caller are those of the
transaction. -/
def codeInvocation (env : Env) (a : Address) (code : Bytes) : Invocation where
  code := Code.ofBytes code
  input := env.transaction.data
  address := a
  codeAddress := a
  caller := env.transaction.caller
  features := env.features

/-- Runs code as that of an account. Its effects are kept if it succeeds. -/
def runCode [Ledger] (inspector : Inspector ι) (a : Address) (code : Bytes) (gasLimit : Nat) :
    MachineM Failure ι FrameResult := fun m =>
  let f := Frame.start (codeInvocation m.context.env a code) gasLimit
  let body : MachineM StateError ι Outcome :=
    guarded .cache Outcome.isOk (runFrame inspector (execute inspector) f)
  let (r, after) := (onState body).run { m with substate := {} }
  let s := after.substate
  let m := { after with substate := m.substate, parked? := none }
  match r with
  | .error e => (.error e, m)
  | .ok outcome =>
    if outcome.isOk then
      (.ok { outcome, logs := s.logs, destroyed := s.destroyed, created := s.created }, m)
    else (.ok { outcome }, m)

/-! ## The store -/

/-- Writes everything pending to the store and starts a new journal. -/
def flush : MachineM Failure ι Changeset := do
  let changes ← onState (onContext Context.flush)
  onJournal fun _ => {}
  return changes

/-- Changes the configuration. -/
def configure (config : Config) (m : Machine ι) : Machine ι :=
  { m with context := { m.context with env := { m.context.env with config } } }

end Machine

end Evm
