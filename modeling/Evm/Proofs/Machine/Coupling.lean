import Evm.Proofs.Execution.Congruence
import Evm.Proofs.Machine.Continues

/-!
# Coupled machines

Two machines that have the context in common, and of the running frame its depth, its sets and a
parked failure, but may differ in their observers and in the logs (`Coupled`). Everything that an
instruction or a frame does, short of running a message, is the same on both. A frame is stated here
for any way to run its code (`frameBy`), so that the code may run on a host that does more than the
machine; and a message for any frame (`executeBy`).
-/

namespace Evm.Machine

variable {ι κ ε α : Type}

/-- A relation of machines that have in common what the work of a frame depends on, and that is kept
by the changes which a frame makes. -/
structure Coupled (R : Machine ι → Machine κ → Prop) : Prop where
  context : ∀ {m m'}, R m m' → m.context = m'.context
  parked : ∀ {m m'}, R m m' → m.parked? = m'.parked?
  depth : ∀ {m m'}, R m m' → m.depth = m'.depth
  destroyed : ∀ {m m'}, R m m' → m.substate.destroyed = m'.substate.destroyed
  created : ∀ {m m'}, R m m' → m.substate.created = m'.substate.created
  moved : ∀ {m m'} context parked?, R m m' →
    R { m with context, parked? } { m' with context, parked? }
  restored : ∀ {m m' n n'}, R m m' → R n n' →
    R { n with substate := m.substate } { n' with substate := m'.substate }
  logs : ∀ {m m'} entry, R m m' →
    R { m with substate := { m.substate with logs := m.substate.logs.push entry } }
      { m' with substate := { m'.substate with logs := m'.substate.logs.push entry } }
  destroys : ∀ {m m'} a, R m m' →
    R { m with substate := { m.substate with destroyed := m.substate.destroyed.insert a } }
      { m' with substate := { m'.substate with destroyed := m'.substate.destroyed.insert a } }
  creates : ∀ {m m'} a, R m m' →
    R { m with substate := { m.substate with created := m.substate.created.insert a } }
      { m' with substate := { m'.substate with created := m'.substate.created.insert a } }

/-- The inspectors do the same to coupled machines. -/
structure Inspects (R : Machine ι → Machine κ → Prop) (i : Inspector ι) (i' : Inspector κ) :
    Prop where
  start : ∀ f, Evm.Alike R (inspect (i.start f)) (inspect (i'.start f))
  beforeStep : ∀ f, Evm.Alike R (inspect (i.beforeStep f)) (inspect (i'.beforeStep f))
  afterStep : ∀ f, Evm.Alike R (inspect (i.afterStep f)) (inspect (i'.afterStep f))
  log : ∀ entry, Evm.Alike R (inspect (i.log entry)) (inspect (i'.log entry))
  call : ∀ request, Evm.Alike R (inspect (i.call request)) (inspect (i'.call request))
  callEnd : ∀ request response,
    Evm.Alike R (inspect (i.callEnd request response)) (inspect (i'.callEnd request response))
  create : ∀ request, Evm.Alike R (inspect (i.create request)) (inspect (i'.create request))
  createEnd : ∀ request response,
    Evm.Alike R (inspect (i.createEnd request response)) (inspect (i'.createEnd request response))
  selfDestruct : ∀ a beneficiary value, Evm.Alike R (inspect (i.selfDestruct a beneficiary value))
    (inspect (i'.selfDestruct a beneficiary value))

/-- The messages of a running frame do alike: their frames end alike and bring the same address. -/
def Children (R : Machine ι → Machine κ → Prop) (run : Message → MachineM StateError ι FrameResult)
    (run' : Message → MachineM StateError κ FrameResult) : Prop :=
  ∀ message m m', R m m' →
    ((runChild run (m.handDown message) m).1.outcome,
        (runChild run (m.handDown message) m).1.address?) =
      ((runChild run' (m.handDown message) m').1.outcome,
        (runChild run' (m.handDown message) m').1.address?) ∧
    R (runChild run (m.handDown message) m).2 (runChild run' (m.handDown message) m').2

namespace Coupled

variable {R : Machine ι → Machine κ → Prop} (hR : Coupled R)

include hR

lemma features {m : Machine ι} {m' : Machine κ} (h : R m m') : m.features = m'.features :=
  congrArg Context.features (hR.context h)

lemma inContext {m : Machine ι} {m' : Machine κ} (h : R m m') {c c' : Context} (hc : c = c') :
    R { m with context := c } { m' with context := c' } := by
  subst hc
  have hmoved := hR.moved c m.parked? h
  have hparked : { m' with context := c, parked? := m.parked? } = { m' with context := c } := by
    rw [hR.parked h]
  rwa [hparked] at hmoved

lemma onContext (op : ContextM ε α) :
    Program.Alike R (onContext op : MachineM ε ι α) (onContext op) := by
  intro m m' h
  have hcontext := hR.context h
  exact ⟨congrArg (fun c => (op.run c).1) hcontext,
    hR.inContext h (congrArg (fun c => (op.run c).2) hcontext)⟩

lemma onWorld (op : WorldM α) :
    Program.Alike R (onWorld op : MachineM StateError ι α) (onWorld op) :=
  hR.onContext _

lemma onJournal (f : Journal → Journal) :
    Program.Alike R (onJournal f : MachineM ε ι Unit) (onJournal f) :=
  .modify fun _ _ h => hR.inContext h
    (congrArg (fun c => { c with journal := f c.journal }) (hR.context h))

lemma report (e : Event) : Program.Alike R (report e : MachineM ε ι Unit) (report e) :=
  .modify fun _ _ h => hR.inContext h (congrArg (Context.report · e) (hR.context h))

lemma park {m : Machine ι} {m' : Machine κ} (h : R m m') (e : StateError) :
    R (m.park e) (m'.park e) := by
  have hmoved := hR.moved (m.context.report (.stateFailed e)) (some e) h
  have hcontext : ({ m' with context := m.context.report (.stateFailed e), parked? := some e }) =
      m'.park e := by
    unfold Machine.park
    rw [hR.context h]
  rwa [hcontext] at hmoved

lemma guarded {ofCache : CacheError → ε} {keep : α → Bool} {body : MachineM ε ι α}
    {body' : MachineM ε κ α} (hbody : Program.Alike R body body') :
    Program.Alike R (guarded ofCache keep body) (guarded ofCache keep body') := by
  intro m m' h
  obtain ⟨heq, h₁⟩ := hbody m.opened m'.opened
    (hR.inContext h (congrArg Context.checkpoint (hR.context h)))
  rcases hr : body.run m.opened with ⟨r, m₁⟩
  rcases hr' : body'.run m'.opened with ⟨r', m₁'⟩
  rw [hr, hr'] at heq h₁
  obtain rfl : r = r' := heq
  have hcontext := hR.context h₁
  have habandoned := hR.inContext h₁ (congrArg Context.abandon hcontext)
  change body.run { m with context := m.context.checkpoint } = _ at hr
  change body'.run { m' with context := m'.context.checkpoint } = _ at hr'
  change (Machine.guarded ofCache keep body m).1 = (Machine.guarded ofCache keep body' m').1 ∧
    R (Machine.guarded ofCache keep body m).2 (Machine.guarded ofCache keep body' m').2
  unfold Machine.guarded
  rw [hr, hr']
  cases r with
  | error e => exact ⟨rfl, habandoned⟩
  | ok a =>
    dsimp only
    cases keep a with
    | false => exact ⟨rfl, habandoned⟩
    | true =>
      rw [← hcontext]
      rcases Context.commit.run m₁.context with ⟨_ | _, committed⟩
      · exact ⟨rfl, hR.inContext h₁ rfl⟩
      · exact ⟨rfl, hR.inContext h₁ rfl⟩

/-! ## Hosts -/

lemma attempt (op : WorldM α) :
    HostM.Alike R (attempt op : HostM (Machine ι) α) (attempt op) := by
  intro m m' h
  obtain ⟨heq, h₁⟩ := hR.onWorld op m m' h
  change (Machine.attempt op m).1 = (Machine.attempt op m').1 ∧
    R (Machine.attempt op m).2 (Machine.attempt op m').2
  unfold Machine.attempt
  rcases hr : (Machine.onWorld op : MachineM StateError ι α).run m with ⟨r, m₁⟩
  rcases hr' : (Machine.onWorld op : MachineM StateError κ α).run m' with ⟨r', m₁'⟩
  rw [hr, hr'] at heq h₁
  obtain rfl : r = r' := heq
  cases r with
  | error e => exact ⟨rfl, hR.park h₁ e⟩
  | ok a => exact ⟨rfl, h₁⟩

lemma access (a : Address) :
    HostM.Alike R (access a : HostM (Machine ι) Bool) (access a) := by
  intro m m' h
  have hcontext := hR.context h
  exact ⟨congrArg (fun c : Context => some (c.onJournal (·.access a)).1) hcontext,
    hR.inContext h (congrArg (fun c : Context => (c.onJournal (·.access a)).2) hcontext)⟩

lemma accessSlot (s : Slot) :
    HostM.Alike R (accessSlot s : HostM (Machine ι) Bool) (accessSlot s) := by
  intro m m' h
  have hcontext := hR.context h
  exact ⟨congrArg (fun c : Context => some (c.onJournal (·.accessSlot s)).1) hcontext,
    hR.inContext h (congrArg (fun c : Context => (c.onJournal (·.accessSlot s)).2) hcontext)⟩

lemma codeHash (a : Address) :
    HostM.Alike R (codeHash a : HostM (Machine ι) (Loaded Hash)) (codeHash a) := by
  refine .bind (hR.access a) fun _ => .bind (hR.attempt _) fun record? => ?_
  cases record? with
  | none => exact .pure _
  | some record => exact .pure _

lemma storeSlot (a : Address) (index value : Word) :
    HostM.Alike R (storeSlot a index value : HostM (Machine ι) (Loaded Gas.SlotWrite))
      (storeSlot a index value) :=
  .bind (hR.accessSlot _) fun _ => .bind (hR.attempt _) fun _ => .bind (hR.attempt _) fun _ =>
    .bind (hR.attempt _) fun _ => .pure _

lemma loadTransient (a : Address) (index : Word) :
    Evm.Alike R (loadTransient a index : StateM (Machine ι) Word) (loadTransient a index) :=
  fun _ _ h => ⟨congrArg (fun c => c.journal.tload ⟨a, index⟩) (hR.context h), h⟩

lemma storeTransient (a : Address) (index value : Word) :
    Evm.Alike R (storeTransient a index value : StateM (Machine ι) Unit)
      (storeTransient a index value) :=
  fun _ _ h => ⟨rfl, hR.inContext h
    (congrArg (fun c => { c with journal := c.journal.tstore ⟨a, index⟩ value }) (hR.context h))⟩

variable {i : Inspector ι} {i' : Inspector κ} (hi : Inspects R i i')

include hi

lemma log (entry : Log) : Evm.Alike R (log i entry) (log i' entry) :=
  .bind (hi.log entry) fun _ _ _ h => ⟨rfl, hR.logs entry h⟩

lemma selfDestruct [Ledger] (a beneficiary : Address) :
    HostM.Alike R (selfDestruct i a beneficiary) (selfDestruct i' a beneficiary) := by
  refine .get_bind fun m₀ m₀' h₀ => ?_
  rw [hR.features h₀]
  refine .bind (hR.access beneficiary) fun _ => .bind (hR.attempt _) fun target? =>
    .bind (hR.attempt _) fun record => .get_bind fun m₁ m₁' h₁ => ?_
  have hcreated : m₁.substate.created.contains a = m₁'.substate.created.contains a := by
    rw [hR.created h₁]
  have hdestroyed : m₁.substate.destroyed.contains a = m₁'.substate.destroyed.contains a := by
    rw [hR.destroyed h₁]
  dsimp only
  rw [hcreated, hdestroyed]
  refine .bind (hR.attempt _) fun _ => .bind (.modify fun m₂ m₂' h₂ => ?_) fun _ =>
    .bind (.lift (hi.selfDestruct _ _ _)) fun _ => .pure _
  -- The substate is written back as it was read before the sweep.
  have htouched := hR.inContext h₂ (congrArg (fun c : Context =>
    { c with journal := (c.journal.touch a).touch beneficiary }) (hR.context h₂))
  cases !m₀'.features.has .eip6780 || m₁'.substate.created.contains a with
  | true => exact hR.restored (hR.destroys a h₁) htouched
  | false => exact hR.restored h₁ htouched

/-! ## Calls and creations -/

variable {run : Message → MachineM StateError ι FrameResult}
  {run' : Message → MachineM StateError κ FrameResult}

omit hi in
lemma handDown {m : Machine ι} {m' : Machine κ} (h : R m m') (message : Message) :
    m'.handDown message = m.handDown message := by
  unfold Machine.handDown
  rw [hR.destroyed h, hR.created h]

variable (hrun : Children R run run')

include hrun

lemma call (request : CallRequest) :
    Evm.Alike R (call i run request) (call i' run' request) := by
  refine .bind (hi.call request) fun answer => ?_
  rcases answer with ⟨request, _ | response⟩
  · refine .get_bind fun m m' h => ?_
    have hchild := hrun (.ofCall request (m.depth + 1)) m m' h
    rw [← hR.depth h, hR.handDown h]
    exact Evm.Alike.bind_at (fun r : FrameResult => (r.outcome, r.address?)) hchild
      fun ending => hi.callEnd request ⟨ending.1, request.out⟩
  · exact .pure response

lemma create (request : CreateRequest) :
    Evm.Alike R (create i run request) (create i' run' request) := by
  refine .bind (hi.create request) fun answer => ?_
  rcases answer with ⟨request, _ | response⟩
  · refine .get_bind fun m m' h => ?_
    have hchild := hrun (.ofCreate request (m.depth + 1)) m m' h
    rw [← hR.depth h, hR.handDown h]
    exact Evm.Alike.bind_at (fun r : FrameResult => (r.outcome, r.address?)) hchild
      fun ending => hi.createEnd request ⟨ending.1, ending.2⟩
  · exact .pure response

/-- As hosts of a frame coupled machines cannot be told apart, if the messages of the frame do
alike. -/
theorem host [Ledger] : (host i run).Alike R (host i' run') where
  env h := congrArg Context.env (hR.context h)
  beforeStep := hi.beforeStep
  afterStep := hi.afterStep
  presence a := .bind (hR.access a) fun _ => .bind (hR.attempt _) fun _ => .pure _
  balance a := .bind (hR.access a) fun _ => .bind (hR.attempt _) fun _ => .pure _
  code a := .bind (hR.access a) fun _ => .bind (hR.attempt _) fun _ => .pure _
  codeHash := hR.codeHash
  loadSlot _ _ := .bind (hR.accessSlot _) fun _ => .bind (hR.attempt _) fun _ => .pure _
  storeSlot := hR.storeSlot
  loadTransient := hR.loadTransient
  storeTransient := hR.storeTransient
  log := hR.log hi
  selfDestruct := hR.selfDestruct hi
  call := hR.call hi hrun
  create := hR.create hi hrun

end Coupled

/-! ## Frames, however their code runs -/

/-- Runs a frame to its end on a host over the machine. -/
def runFrameOn (inspector : Inspector ι) (host : Host (Machine ι)) (f : Frame) :
    MachineM StateError ι Outcome := fun m =>
  let (f, m) := inspect (inspector.start f) m
  let (f, m) := host.run f m
  match m.parked? with
  | some e => (.error e, { m with parked? := none })
  | none => (.ok f.outcome, m)

section

variable [Ledger] (runCode : Frame → MachineM StateError ι Outcome)

/-- Runs the precompiled contract or the code that a call is for. -/
def runCalledBy (message : Message) (target : Address) : MachineM StateError ι FrameResult := do
  let features := (← get).features
  match Precompile.at? features message.codeAddress with
  | some p => runPrecompile p message
  | none =>
    let code ← calledCode message
    if code.isEmpty then return { outcome := .idle .stop message.gasLimit }
    else
      let invocation := message.invocation target code features
      return { outcome := ← runCode (Frame.start invocation message.gasLimit) }

/-- What a call does in its checkpoint. -/
def callBodyBy (message : Message) (target : Address) : MachineM StateError ι FrameResult := do
  if !message.isDelegate then transfer message.caller target message.value
  runCalledBy runCode message target

/-- The frame of a call. -/
def callFrameBy (message : Message) (target : Address) : MachineM StateError ι FrameResult := do
  if callDepthLimit < message.depth then
    return { outcome := .idle .callTooDeep message.gasLimit }
  else if ← lacksFunds message then
    return { outcome := .idle .outOfFunds message.gasLimit }
  else
    guarded .cache FrameResult.isOk (callBodyBy runCode message target)

/-- Runs init code and deploys the contract. -/
def constructBy (message : Message) (a : Address) : MachineM StateError ι FrameResult := do
  if ← isTaken a then
    report (.createCollision a)
    return { outcome := .halt .createCollision message.gasLimit }
  else
    prepareAccount message a
    let invocation := message.initInvocation a (← get).features
    let outcome ← runCode (Frame.start invocation message.gasLimit)
    if outcome.isOk then deploy a outcome else return { outcome }

/-- The frame of a creation. -/
def createFrameBy (message : Message) : MachineM StateError ι FrameResult := do
  if callDepthLimit < message.depth then
    return { outcome := .idle .callTooDeep message.gasLimit }
  else
    let creator ← onWorld (World.accountOrEmpty message.caller)
    if creator.balance < message.value then
      return { outcome := .idle .outOfFunds message.gasLimit }
    else if creator.nonce = UInt64.ofNat Count.max then
      return { outcome := .idle .nonceOverflow message.gasLimit }
    else
      onWorld (World.putAccount message.caller { creator with nonce := creator.nonce + 1 })
      let a := message.newAddress creator.nonce
      onJournal fun j => (j.access a).2
      guarded .cache FrameResult.isOk (constructBy runCode message a)

/-- The frame of a message. -/
def frameBy (message : Message) : MachineM StateError ι FrameResult :=
  match message.to? with
  | some target => callFrameBy runCode message target
  | none => createFrameBy runCode message

/-- Runs a message in a frame of its own and gives the machine back to the frame around it. -/
def executeBy (body : Message → MachineM StateError ι FrameResult) (message : Message) :
    MachineM StateError ι FrameResult := do
  report <| .frameStart message.depth message.caller message.to? message.value message.gasLimit
  let outer ← get
  set { outer with depth := message.depth, substate := Substate.ofMessage message }
  let result ← tryCatch (body message) fun e => do
    modify fun m => { m with depth := outer.depth, substate := outer.substate }
    throw e
  let result := result.withSubstate message (← get).substate
  modify fun m => { m with depth := outer.depth, substate := outer.substate }
  report <| .frameEnd message.depth result.outcome.status result.outcome.gas.spent
  return result

omit runCode in
/-- The machine runs the code of its frames on itself. -/
lemma executeBy_frameBy (inspector : Inspector ι)
    (run : Message → MachineM StateError ι FrameResult) :
    executeBy (frameBy (runFrameOn inspector (host inspector run))) = executeWith inspector run :=
  rfl

end

namespace Coupled

variable [Ledger] {R : Machine ι → Machine κ → Prop} (hR : Coupled R)

include hR

omit [Ledger] in
lemma runFrameOn {i : Inspector ι} {i' : Inspector κ} (hi : Inspects R i i')
    {host : Host (Machine ι)} {host' : Host (Machine κ)} (hhost : host.Alike R host') (f : Frame) :
    Program.Alike R (runFrameOn i host f) (runFrameOn i' host' f) := by
  intro m m' h
  obtain ⟨hstart, h₁⟩ := hi.start f m m' h
  change (Machine.runFrameOn i host f m).1 = (Machine.runFrameOn i' host' f m').1 ∧
    R (Machine.runFrameOn i host f m).2 (Machine.runFrameOn i' host' f m').2
  unfold Machine.runFrameOn
  rcases hs : inspect (i.start f) m with ⟨f₁, m₁⟩
  rcases hs' : inspect (i'.start f) m' with ⟨f₁', m₁'⟩
  rw [hs, hs'] at hstart h₁
  obtain rfl : f₁ = f₁' := hstart
  obtain ⟨hrun, h₂⟩ := hhost.run f₁ m₁ m₁' h₁
  dsimp only
  rcases hr : host.run f₁ m₁ with ⟨f₂, m₂⟩
  rcases hr' : host'.run f₁ m₁' with ⟨f₂', m₂'⟩
  rw [hr, hr'] at hrun h₂
  obtain rfl : f₂ = f₂' := hrun
  dsimp only
  rw [← hR.parked h₂]
  cases hparked : m₂.parked? with
  | none => exact ⟨rfl, h₂⟩
  | some e =>
    have hmoved := hR.moved m₂.context none h₂
    have hcontext : { m₂' with context := m₂.context, parked? := none } =
        { m₂' with parked? := none } := by rw [hR.context h₂]
    exact ⟨rfl, hcontext ▸ hmoved⟩

lemma transfer (sender receiver : Address) (value : Word) :
    Program.Alike R (transfer sender receiver value : MachineM StateError ι Unit)
      (transfer sender receiver value) := by
  refine .bind (hR.onJournal _) fun _ => .get_bind fun m m' h => ?_
  rw [hR.features h]
  exact hR.onWorld _

omit [Ledger] in
lemma runPrecompile (p : Precompile) (message : Message) :
    Program.Alike R (runPrecompile p message : MachineM StateError ι FrameResult)
      (runPrecompile p message) := by
  refine .get_bind fun m m' h => ?_
  rw [hR.features h]
  dsimp only
  cases p.run m'.features message.data message.gasLimit with
  | error e => exact .bind (hR.report _) fun _ => .pure _
  | ok output => exact .pure _

omit [Ledger] in
lemma lacksFunds (message : Message) :
    Program.Alike R (lacksFunds message : MachineM StateError ι Bool) (lacksFunds message) :=
  .ite (.bind (hR.onWorld _) fun _ => .pure _) (.pure _)

omit [Ledger] in
lemma calledCode (message : Message) :
    Program.Alike R (calledCode message : MachineM StateError ι Code) (calledCode message) := by
  unfold Machine.calledCode
  cases message.code? with
  | none => exact hR.onWorld _
  | some code => exact .pure code

omit [Ledger] in
lemma isTaken (a : Address) :
    Program.Alike R (isTaken a : MachineM StateError ι Bool) (isTaken a) := by
  refine .bind (hR.onWorld _) fun record? => ?_
  cases record? with
  | none => exact .pure _
  | some record => exact .pure _

lemma prepareAccount (message : Message) (a : Address) :
    Program.Alike R (prepareAccount message a : MachineM StateError ι Unit)
      (prepareAccount message a) := by
  refine .bind (hR.onWorld _) fun record => .get_bind fun m m' h => ?_
  rw [hR.features h]
  exact .bind (hR.onWorld _) fun _ => .bind (hR.transfer _ _ _) fun _ =>
    .modify fun _ _ h => hR.creates a h

omit [Ledger] in
lemma deploy (a : Address) (o : Outcome) :
    Program.Alike R (deploy a o : MachineM StateError ι FrameResult) (deploy a o) := by
  refine .get_bind fun m m' h => ?_
  dsimp only
  rw [hR.features h, hR.context h]
  exact .ite (.bind (hR.onWorld _) fun _ => .pure _) (.pure _)

variable {runCode : Frame → MachineM StateError ι Outcome}
  {runCode' : Frame → MachineM StateError κ Outcome}
  (hcode : ∀ f, Program.Alike R (runCode f) (runCode' f))

include hcode

omit [Ledger] in
lemma runCalledBy (message : Message) (target : Address) :
    Program.Alike R (runCalledBy runCode message target)
      (runCalledBy runCode' message target) := by
  refine .get_bind fun m m' h => ?_
  dsimp only
  rw [hR.features h]
  cases Precompile.at? m'.features message.codeAddress with
  | some p => exact hR.runPrecompile p message
  | none =>
    exact .bind (hR.calledCode message) fun code => .ite (.pure _)
      (.bind (hcode _) fun _ => .pure _)

lemma constructBy (message : Message) (a : Address) :
    Program.Alike R (constructBy runCode message a) (constructBy runCode' message a) := by
  refine .bind (hR.isTaken a) fun taken => .ite (.bind (hR.report _) fun _ => .pure _) ?_
  refine .bind (hR.prepareAccount message a) fun _ => .get_bind fun m m' h => ?_
  rw [hR.features h]
  exact .bind (hcode _) fun _ => .ite (hR.deploy a _) (.pure _)

/-- A frame does the same on coupled machines if its code does. -/
theorem frameBy (message : Message) :
    Program.Alike R (frameBy runCode message) (frameBy runCode' message) := by
  unfold Machine.frameBy
  cases message.to? with
  | some target =>
    exact .ite (.pure _) <| .bind (hR.lacksFunds message) fun _ => .ite (.pure _) <|
      hR.guarded <| .ite (.bind (hR.transfer _ _ _) fun _ => hR.runCalledBy hcode message target)
        (hR.runCalledBy hcode message target)
  | none =>
    exact .ite (.pure _) <| .bind (hR.onWorld _) fun creator => .ite (.pure _) <|
      .ite (.pure _) <| .bind (hR.onWorld _) fun _ => .bind (hR.onJournal _) fun _ =>
        hR.guarded (hR.constructBy hcode message _)

end Coupled

end Evm.Machine
