import Evm.Execution.Step
import Evm.Machine.Host
import Evm.Precompile

/-!
# Message frames

Running one message: moving its value, running a precompiled contract, code or init code, and
putting the code of a new contract in place. Every frame works in a checkpoint of its own that is
kept only if the frame succeeds. Failures of a frame are part of its result; only a failure of the
store fails the whole execution.
-/

namespace Evm

/-- The largest number of frames around a frame. -/
def callDepthLimit : Nat := 1024

namespace Machine

variable {ι : Type}

/-! ## Value -/

/-- Moves value between accounts. Where empty accounts are not removed, even no value brings the
receiver into existence. -/
def moveValue [Ledger] (features : Features) (sender receiver : Address) (value : Word) :
    WorldM Unit := do
  if value = 0 then
    if !features.has .eip161 then
      if !(← World.exists? receiver) then World.putAccount receiver {}
  else
    let giving ← World.accountOrEmpty sender
    World.putAccount sender { giving with balance := ← Ledger.withdraw giving.balance value }
    let taking ← World.accountOrEmpty receiver
    World.putAccount receiver { taking with balance := ← Ledger.deposit taking.balance value }

/-- Moves value and touches the receiver. -/
def transfer [Ledger] (sender receiver : Address) (value : Word) :
    MachineM StateError ι Unit := do
  onJournal (·.touch receiver)
  onWorld (moveValue (← get).features sender receiver value)

/-! ## Running code -/

/-- Runs a frame to its end. A failure that was parked meanwhile comes out here. -/
def runFrame [Ledger] (inspector : Inspector ι)
    (run : Message → MachineM StateError ι FrameResult)
    (f : Frame) : MachineM StateError ι Outcome := fun m =>
  let (f, m) := inspect (inspector.start f) m
  let (f, m) := (host inspector run).run f m
  match m.parked? with
  | some e => (.error e, { m with parked? := none })
  | none => (.ok f.outcome, m)

/-! ## Calls -/

/-- The end of a frame that ran a precompiled contract. -/
def precompileOutcome (gasLimit : Nat) : Except Precompile.Error Precompile.Output → Outcome
  | .error e =>
    .halt (if e = .outOfGas then .precompileOutOfGas else .precompileFailure) gasLimit
  | .ok output =>
    match (Gas.Meter.full gasLimit).pay? output.gasUsed with
    | some gas => { status := .ret, output := output.bytes, gas }
    | none => .halt .precompileOutOfGas gasLimit

/-- Runs a precompiled contract. -/
def runPrecompile (p : Precompile) (message : Message) : MachineM StateError ι FrameResult := do
  let result := p.run (← get).features message.data message.gasLimit
  match result with
  | .error e => report (.precompileFailed e message.codeAddress)
  | .ok _ => pure ()
  return { outcome := precompileOutcome message.gasLimit result }

/-- Whether the sender holds less than the value that moves. -/
def lacksFunds (message : Message) : MachineM StateError ι Bool := do
  if message.movesValue then
    return (← onWorld (World.accountOrEmpty message.caller)).balance < message.value
  else return false

/-- The code that a call runs. -/
def calledCode (message : Message) : MachineM StateError ι Code := do
  match message.code? with
  | some code => return code
  | none => onWorld (World.codeOf message.codeAddress)

/-- Runs the precompiled contract or the code that a call is for. -/
def runCalled [Ledger] (inspector : Inspector ι)
    (run : Message → MachineM StateError ι FrameResult)
    (message : Message) (target : Address) : MachineM StateError ι FrameResult := do
  let features := (← get).features
  match Precompile.at? features message.codeAddress with
  | some p => runPrecompile p message
  | none =>
    let code ← calledCode message
    if code.isEmpty then return { outcome := .idle .stop message.gasLimit }
    else
      let invocation := message.invocation target code features
      return { outcome := ← runFrame inspector run (Frame.start invocation message.gasLimit) }

/-- What a call does in its checkpoint. -/
def callBody [Ledger] (inspector : Inspector ι)
    (run : Message → MachineM StateError ι FrameResult)
    (message : Message) (target : Address) : MachineM StateError ι FrameResult := do
  if !message.isDelegate then transfer message.caller target message.value
  runCalled inspector run message target

/-- The frame of a call. -/
def callFrame [Ledger] (inspector : Inspector ι)
    (run : Message → MachineM StateError ι FrameResult)
    (message : Message) (target : Address) : MachineM StateError ι FrameResult := do
  if callDepthLimit < message.depth then
    return { outcome := .idle .callTooDeep message.gasLimit }
  else if ← lacksFunds message then
    return { outcome := .idle .outOfFunds message.gasLimit }
  else
    guarded .cache FrameResult.isOk (callBody inspector run message target)

/-! ## Creations -/

/-- The end of a frame that uses up all gas of another end. -/
def failWith (status : Status) (o : Outcome) : Outcome :=
  { status, gas := o.gas.spendAll.setRefund 0 }

/-- The end of a creation whose init code succeeded with the code to deploy. Where a creation does
not fail for want of gas to pay for the code, the contract stays without code. -/
def deployment (features : Features) (codeLimit : Nat) (o : Outcome) : Outcome :=
  if features.has .eip3541 && o.output[0]? == some 0xef then failWith .reservedCode o
  else if features.has .eip170 && codeLimit < o.output.size then failWith .codeTooLarge o
  else
    match o.gas.pay? (o.output.size * Gas.codeDeposit) with
    | some gas => { o with status := .ret, gas }
    | none =>
      if features.has .eip2 then failWith .depositOutOfGas o
      else { o with status := .ret, output := #[] }

/-- Puts the code of a new contract in place. -/
def install (a : Address) (output : Bytes) : WorldM Unit := do
  let code := Code.ofBytes output
  World.putCode code
  let record ← World.accountOrEmpty a
  World.putAccount a { record with codeHash := code.hash }

/-- Deploys what the init code gave back. -/
def deploy (a : Address) (o : Outcome) : MachineM StateError ι FrameResult := do
  let m ← get
  let o := deployment m.features m.context.env.config.codeLimit o
  if o.isOk then
    onWorld (install a o.output)
    return { outcome := o, address? := some a }
  else return { outcome := o }

/-- Whether a contract is in the way of a new one. -/
def isTaken (a : Address) : MachineM StateError ι Bool := do
  match ← onWorld (World.account a) with
  | some record => return record.nonce != 0 || record.hasCode
  | none => return false

/-- Brings the account of a new contract into existence and moves the value to it. -/
def prepareAccount [Ledger] (message : Message) (a : Address) :
    MachineM StateError ι Unit := do
  let record ← onWorld (World.accountOrEmpty a)
  let nonce := if (← get).features.has .eip161 then 1 else record.nonce
  onWorld (World.putAccount a { record with nonce })
  transfer message.caller a message.value
  modify fun m => { m with substate := { m.substate with created := m.substate.created.insert a } }

/-- Runs init code and deploys the contract. -/
def construct [Ledger] (inspector : Inspector ι)
    (run : Message → MachineM StateError ι FrameResult)
    (message : Message) (a : Address) : MachineM StateError ι FrameResult := do
  if ← isTaken a then
    report (.createCollision a)
    return { outcome := .halt .createCollision message.gasLimit }
  else
    prepareAccount message a
    let invocation := message.initInvocation a (← get).features
    let outcome ← runFrame inspector run (Frame.start invocation message.gasLimit)
    if outcome.isOk then deploy a outcome else return { outcome }

/-- The frame of a creation. The nonce of the creator goes up, and the new address stays warm, even
if the creation fails. -/
def createFrame [Ledger] (inspector : Inspector ι)
    (run : Message → MachineM StateError ι FrameResult)
    (message : Message) : MachineM StateError ι FrameResult := do
  if callDepthLimit < message.depth then
    return { outcome := .idle .callTooDeep message.gasLimit }
  else
    let creator ← onWorld (World.accountOrEmpty message.caller)
    if creator.balance < message.value then
      return { outcome := .idle .outOfFunds message.gasLimit }
    else if creator.nonce = UInt64.ofNat Count.max then
      return { outcome := .idle .nonceOverflow message.gasLimit }
    else
      onWorld (World.putAccount message.caller { creator with nonce := creator.nonce + 1 })
      let a := message.newAddress creator.nonce
      onJournal fun j => (j.access a).2
      guarded .cache FrameResult.isOk (construct inspector run message a)

/-! ## Messages -/

/-- The frame of a message. -/
def frame [Ledger] (inspector : Inspector ι)
    (run : Message → MachineM StateError ι FrameResult)
    (message : Message) : MachineM StateError ι FrameResult :=
  match message.to? with
  | some target => callFrame inspector run message target
  | none => createFrame inspector run message

/-- Runs a message in a frame of its own and gives the machine back to the frame around it. -/
def executeWith [Ledger] (inspector : Inspector ι)
    (run : Message → MachineM StateError ι FrameResult)
    (message : Message) : MachineM StateError ι FrameResult := do
  report <| .frameStart message.depth message.caller message.to? message.value message.gasLimit
  let outer ← get
  set { outer with depth := message.depth, substate := Substate.ofMessage message }
  let result ← tryCatch (frame inspector run message) fun e => do
    modify fun m => { m with depth := outer.depth, substate := outer.substate }
    throw e
  let result := result.withSubstate message (← get).substate
  modify fun m => { m with depth := outer.depth, substate := outer.substate }
  report <| .frameEnd message.depth result.outcome.status result.outcome.gas.spent
  return result

/-- Runs a message with at most `levels` levels of messages below it. -/
def executeWithin [Ledger] (inspector : Inspector ι) :
    Nat → Message → MachineM StateError ι FrameResult
  | 0, message =>
    executeWith inspector
      (fun message => return { outcome := .idle .callTooDeep message.gasLimit }) message
  | levels + 1, message => executeWith inspector (executeWithin inspector levels) message

/-- Runs a message. Messages past the depth limit come to nothing, so the levels left below a
message are known from its depth. -/
def execute [Ledger] (inspector : Inspector ι) (message : Message) :
    MachineM StateError ι FrameResult :=
  executeWithin inspector (callDepthLimit + 1 - message.depth) message

end Machine

end Evm
