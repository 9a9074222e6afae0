import Evm.Proofs.Machine.Pairs
import Evm.Proofs.Machine.Termination

/-!
# What an inspector makes of an execution

The machine itself leaves the state of its inspector alone, and it reports nothing about single
instructions. So a property of the inspector and of the reported instructions (`Machine.Watched`) is
kept by everything that the machine does between the hooks of the inspector: if the run of every
frame keeps it, so does every execution (`Machine.watched_executeWith`) and every transaction
(`Machine.watched_runTransaction`). -/

namespace Evm

variable {ι ε α : Type}

/-! ## Notes of inspectors -/

/-- Notes of what has begun and what has ended, the latest first. -/
structure Notes (α β : Type) where
  begun : List α := []
  ended : List β := []

namespace Notes

variable {β : Type}

/-- Something begins. -/
def begin (notes : Notes α β) (a : α) : Notes α β := { notes with begun := a :: notes.begun }

/-- What has begun last ends. -/
def finish (notes : Notes α β) (f : α → β) : Notes α β :=
  match notes.begun with
  | [] => notes
  | a :: begun => { begun, ended := f a :: notes.ended }

lemma finish_of_begun {notes : Notes α β} {a : α} {begun : List α} (h : notes.begun = a :: begun)
    (f : α → β) : notes.finish f = { begun, ended := f a :: notes.ended } := by
  unfold finish
  rw [h]

end Notes

/-! ## Instructions and reports about them -/

/-- The instruction runs a message, whose frame takes steps of its own. -/
def Instruction.runsMessage : Instruction → Bool
  | .create _ | .call _ => true
  | _ => false

section

variable {σ : Type} {host : Host σ} {call : CallRequest → StateM σ CallResponse}
  {create : CreateRequest → StateM σ CreateResponse}

lemma Instruction.run_of_runsMessage {i : Instruction} (h : i.runsMessage = false) :
    i.run { host with call, create } = i.run host := by
  cases i with
  | create _ => cases h
  | call _ => cases h
  | _ => rfl

/-- An instruction that runs no message does not depend on how the host runs them. -/
lemma Exec.next_run_of_runsMessage {f : Frame}
    (hf : ∀ i, f.instruction? = some i → i.runsMessage = false) (s : σ) :
    (next { host with call, create }).run (f, s) = (next host).run (f, s) := by
  unfold next
  rw [frame_bind_run, frame_bind_run]
  cases hi : f.instruction? with
  | none => rfl
  | some i =>
    dsimp only
    rw [Instruction.run_of_runsMessage (hf i hi)]

end

/-- What the event says about an instruction, if it is about one. -/
def Event.tracedStep? : Event → Option TracedStep
  | .step traced => some traced
  | _ => none

lemma Event.tracedStep?_eq_none {e : Event} (h : e.channel ≠ .tracer) : e.tracedStep? = none := by
  cases e <;> first | rfl | exact absurd rfl h

namespace Context

/-- What was reported about instructions, the latest first. -/
def tracedSteps (c : Context) : List TracedStep := c.events.filterMap Event.tracedStep?

variable {c : Context} {steps : List TracedStep}

lemma tracedSteps_report {e : Event} (h : e.tracedStep? = none) :
    (c.report e).tracedSteps = c.tracedSteps := List.filterMap_cons_none h

lemma tracedSteps_checkpoint : c.checkpoint.tracedSteps = c.tracedSteps := rfl

lemma keeps_tracedSteps_commit : Keeps (tracedSteps · = steps) commit := by
  intro c hc
  change (commit c).2.tracedSteps = steps
  unfold commit
  split
  · exact hc
  · split <;> exact hc

lemma keeps_tracedSteps_revert : Keeps (tracedSteps · = steps) revert := by
  intro c hc
  change (revert c).2.tracedSteps = steps
  unfold revert
  split
  · exact hc
  · split <;> exact hc

lemma tracedSteps_abandon : c.abandon.tracedSteps = c.tracedSteps := by
  have hrevert := keeps_tracedSteps_revert c (rfl : c.tracedSteps = c.tracedSteps)
  unfold abandon
  split <;> rename_i hrun <;> rw [hrun] at hrevert
  · exact hrevert
  · exact (tracedSteps_report rfl).trans hrevert

/-- The world is no matter of reports. -/
lemma keeps_tracedSteps_onWorld (op : WorldM α) : Keeps (tracedSteps · = steps) (onWorld op) :=
  fun _ h => h

lemma keeps_tracedSteps_chargeSender [Ledger] :
    Keeps (tracedSteps · = steps) Settlement.chargeSender :=
  .bind .get fun _ => .bind (keeps_tracedSteps_onWorld _) fun _ =>
    .bind (keeps_tracedSteps_onWorld _) fun _ => .bind (keeps_tracedSteps_onWorld _) fun _ =>
      .modify fun _ h => h

lemma keeps_tracedSteps_reimburse [Ledger] (gas : Gas.Meter) :
    Keeps (tracedSteps · = steps) (Settlement.reimburse gas) :=
  .bind .get fun _ => keeps_tracedSteps_onWorld _

lemma keeps_tracedSteps_reward [Ledger] (gas : Gas.Meter) :
    Keeps (tracedSteps · = steps) (Settlement.reward gas) :=
  .bind .get fun _ => .bind (keeps_tracedSteps_onWorld _) fun _ => .modify fun _ h => h

lemma keeps_tracedSteps_cleanup : Keeps (tracedSteps · = steps) cleanup :=
  .bind .get fun _ =>
    .ite
      (.bind (keeps_tracedSteps_onWorld _) fun _ =>
        .ite (.bind (.modify fun _ h => (tracedSteps_report rfl).trans h) fun _ => .pure _)
          (.pure _))
      (.pure _)

lemma keeps_tracedSteps_flush : Keeps (tracedSteps · = steps) flush :=
  .bind (keeps_tracedSteps_onWorld _) fun _ =>
    .bind (.modify fun _ h => (tracedSteps_report rfl).trans h) fun _ =>
      .bind (keeps_tracedSteps_onWorld _) fun _ => .pure _

end Context

namespace Machine

/-- The property is one of the inspector and of what was reported about instructions. -/
def Watched (I : Machine ι → Prop) : Prop :=
  ∀ {m m' : Machine ι}, I m → m'.observer = m.observer →
    m'.context.tracedSteps = m.context.tracedSteps → I m'

variable {I : Machine ι → Prop}

lemma Watched.robust (hI : Watched I) : Robust I where
  world hm _ := hI hm rfl rfl
  journal hm _ := hI hm rfl rfl
  report he hm := hI hm rfl (Context.tracedSteps_report (Event.tracedStep?_eq_none he))
  parked hm := hI hm rfl rfl
  substate hm := hI hm rfl rfl

lemma Watched.stable (hI : Watched I) : Stable I := hI.robust.stable

section

variable (hI : Watched I)

include hI

lemma watched_onContext {op : ContextM ε α}
    (hop : ∀ steps, Keeps (Context.tracedSteps · = steps) op) :
    Keeps I (onContext op : MachineM ε ι α) :=
  fun m hm => hI hm rfl (hop _ m.context rfl)

lemma watched_onWorld (op : WorldM α) : Keeps I (onWorld op : MachineM StateError ι α) :=
  watched_onContext hI fun _ => Context.keeps_tracedSteps_onWorld op

lemma watched_onJournal (f : Journal → Journal) : Keeps I (onJournal f : MachineM ε ι Unit) :=
  fun _ hm => hI hm rfl rfl

lemma watched_guarded {ofCache : CacheError → ε} {keep : α → Bool} {body : MachineM ε ι α}
    (h : Keeps I body) : Keeps I (guarded ofCache keep body) := by
  intro m hm
  have hbody := h { m with context := m.context.checkpoint }
    (hI hm rfl Context.tracedSteps_checkpoint)
  change I (guarded ofCache keep body m).2
  unfold guarded
  split <;> rename_i hrun <;> rw [hrun] at hbody
  · exact hI hbody rfl Context.tracedSteps_abandon
  · rename_i m'
    split
    · have hcommit := Context.keeps_tracedSteps_commit m'.context
        (rfl : m'.context.tracedSteps = m'.context.tracedSteps)
      split <;> rename_i hr <;> rw [hr] at hcommit <;> exact hI hbody rfl hcommit
    · exact hI hbody rfl Context.tracedSteps_abandon

end

/-! ## What happens between two instructions of a frame -/

/-- Apart from what it does before and after the instructions of a frame, the inspector keeps the
property. -/
structure Abides (i : Inspector ι) (I : Machine ι → Prop) : Prop where
  log : ∀ entry m, I m → I (inspect (i.log entry) m).2
  call : ∀ request m, I m → I (inspect (i.call request) m).2
  callEnd : ∀ request response m, I m → I (inspect (i.callEnd request response) m).2
  create : ∀ request m, I m → I (inspect (i.create request) m).2
  createEnd : ∀ request response m, I m → I (inspect (i.createEnd request response) m).2
  selfDestruct : ∀ a beneficiary value m, I m → I (inspect (i.selfDestruct a beneficiary value) m).2

/-- Running a message keeps the property. -/
def RunKeeps (I : Machine ι → Prop) (run : Message → MachineM StateError ι FrameResult) : Prop :=
  ∀ message, Keeps I (run message)

variable {i : Inspector ι} {run : Message → MachineM StateError ι FrameResult}

lemma call_run (request : CallRequest) (m : Machine ι) :
    call i run request m =
      match inspect (i.call request) m with
      | ((request, none), m) =>
        let (result, m) := runChild run (m.handDown (.ofCall request (m.depth + 1))) m
        inspect (i.callEnd request ⟨result.outcome, request.out⟩) m
      | ((_, some response), m) => (response, m) := by
  unfold call
  simp only [bind, StateT.bind]
  rcases inspect (i.call request) m with ⟨⟨request, _ | response⟩, m₁⟩ <;> rfl

lemma create_run (request : CreateRequest) (m : Machine ι) :
    create i run request m =
      match inspect (i.create request) m with
      | ((request, none), m) =>
        let (result, m) := runChild run (m.handDown (.ofCreate request (m.depth + 1))) m
        inspect (i.createEnd request ⟨result.outcome, result.address?⟩) m
      | ((_, some response), m) => (response, m) := by
  unfold create
  simp only [bind, StateT.bind]
  rcases inspect (i.create request) m with ⟨⟨request, _ | response⟩, m₁⟩ <;> rfl

section

variable (hI : Watched I) (hi : Abides i I)

include hI hi

lemma watched_log (entry : Log) (m : Machine ι) (hm : I m) : I (log i entry m).2 :=
  hI (hi.log entry m hm) rfl rfl

variable (hrun : RunKeeps I run)

include hrun

omit hi in
lemma watched_runChild (message : Message) {m : Machine ι} (hm : I m) :
    I (runChild run message m).2 := by
  have h := hrun message m hm
  unfold runChild
  split <;> rename_i hr <;> rw [hr] at h
  · exact hI h rfl rfl
  · exact hI.stable.parked (hI.stable.report (e := .stateFailed _) nofun h)

lemma watched_call (request : CallRequest) {m : Machine ι} (hm : I m) :
    I (call i run request m).2 := by
  have hasked := hi.call request m hm
  rw [call_run]
  rcases hanswer : inspect (i.call request) m with ⟨⟨request, _ | response⟩, m₁⟩ <;>
    rw [hanswer] at hasked
  · exact hi.callEnd _ _ _ (watched_runChild hI hrun _ hasked)
  · exact hasked

lemma watched_create (request : CreateRequest) {m : Machine ι} (hm : I m) :
    I (create i run request m).2 := by
  have hasked := hi.create request m hm
  rw [create_run]
  rcases hanswer : inspect (i.create request) m with ⟨⟨request, _ | response⟩, m₁⟩ <;>
    rw [hanswer] at hasked
  · exact hi.createEnd _ _ _ (watched_runChild hI hrun _ hasked)
  · exact hasked

variable [Ledger] {x y : Frame × Machine ι}

lemma watched_move (h : (host i run).Move x y) (hx : I x.2) : I y.2 := by
  cases h with
  | alone => exact hx
  | presence a => exact keeps_presence hI.stable a _ hx
  | balance a => exact keeps_balance hI.stable a _ hx
  | code a => exact keeps_code hI.stable a _ hx
  | codeHash a => exact keeps_codeHash hI.stable a _ hx
  | loadSlot index => exact keeps_loadSlot hI.stable _ index _ hx
  | storeSlot index value =>
    exact keeps_storeSlot hI.stable _ index value (watched_onWorld hI _) _ hx
  | loadTransient => exact hx
  | storeTransient => exact hI hx rfl rfl
  | log => exact watched_log hI hi _ _ hx
  | selfDestruct beneficiary => exact keeps_selfDestruct hI.robust (hi.selfDestruct _ _) _ hx
  | create _ _ hcreate => exact congrArg Prod.snd hcreate ▸ watched_create hI hi hrun _ hx
  | call _ _ hcall => exact congrArg Prod.snd hcall ▸ watched_call hI hi hrun _ hx

/-- Whatever an instruction does keeps the property. -/
lemma watched_reaches (h : (host i run).Reaches x y) (hx : I x.2) : I y.2 := by
  induction h with
  | refl => exact hx
  | tail _ hmove ih => exact watched_move hI hi hrun hmove ih

lemma watched_next (f : Frame) {m : Machine ι} (hm : I m) :
    I ((Exec.next (host i run)).perform (f, m)).2 :=
  watched_reaches hI hi hrun (Exec.perform_reaches Exec.keeps_next) hm

end

/-! ### Instructions that run no message -/

/-- The inspector with an answer to all calls and creations. -/
def answering (i : Inspector ι) : Inspector ι :=
  { i with
    call := fun request => return (request, some ⟨.idle .stop request.gasLimit, request.out⟩)
    create := fun request => return (request, some ⟨.idle .stop request.gasLimit, none⟩) }

section

variable [Ledger]

lemma host_answering (run run' : Message → MachineM StateError ι FrameResult) :
    host (answering i) run' =
      { host i run with call := call (answering i) run', create := create (answering i) run' } := rfl

lemma next_answering {run' : Message → MachineM StateError ι FrameResult} {f : Frame}
    (hf : ∀ instruction, f.instruction? = some instruction → instruction.runsMessage = false)
    (m : Machine ι) :
    (Exec.next (host (answering i) run')).run (f, m) = (Exec.next (host i run)).run (f, m) := by
  rw [host_answering run]
  exact Exec.next_run_of_runsMessage hf m

/-- An instruction that runs no message keeps a property whatever messages do. -/
lemma watched_next_alone (run : Message → MachineM StateError ι FrameResult) (hI : Watched I)
    (hi : Abides i I) {f : Frame} {m : Machine ι}
    (hf : ∀ instruction, f.instruction? = some instruction → instruction.runsMessage = false)
    (hm : I m) : I ((Exec.next (host i run)).perform (f, m)).2 := by
  have hanswering : Abides (answering i) I :=
    { hi with call := fun _ _ h => h, create := fun _ _ h => h }
  let idle (message : Message) : MachineM StateError ι FrameResult :=
    return { outcome := .idle .stop message.gasLimit }
  have hidle : RunKeeps I idle := fun _ => .pure _
  have hnext := watched_next hI hanswering hidle f hm
  unfold Exec.perform at hnext ⊢
  rwa [next_answering hf] at hnext

end

/-! ## Frames -/

/-- What the run of a frame comes to: its outcome, unless a failure was parked. -/
def unparked : Frame × Machine ι → Except StateError Outcome × Machine ι
  | (f, m) =>
    match m.parked? with
    | some e => (.error e, { m with parked? := none })
    | none => (.ok f.outcome, m)

lemma runFrame_eq [Ledger] (f : Frame) (m : Machine ι) :
    (runFrame i run f).run m =
      unparked ((host i run).run (inspect (i.start f) m).1 (inspect (i.start f) m).2) := rfl

lemma Watched.unparked (hI : Watched I) {x : Frame × Machine ι} (hx : I x.2) :
    I (unparked x).2 := by
  obtain ⟨f, m⟩ := x
  unfold Machine.unparked
  dsimp only
  split
  · exact hI hx rfl rfl
  · exact hx

section

variable [Ledger] (hI : Watched I)
  (hcode : ∀ invocation gasLimit, Keeps I (runFrame i run (Frame.start invocation gasLimit)))

include hI

include hcode

lemma watched_runCalled (message : Message) (target : Address) :
    Keeps I (runCalled i run message target) := by
  refine .bind .get fun _ => ?_
  dsimp only
  split
  · exact keeps_runPrecompile hI.stable _ _
  · exact .bind (keeps_calledCode hI.stable _) fun _ =>
      .ite (.pure _) (.bind (hcode _ _) fun _ => .pure _)

lemma watched_callBody (message : Message) (target : Address) :
    Keeps I (callBody i run message target) :=
  .ite (.bind (keeps_transfer hI.robust _ _ _) fun _ => watched_runCalled hI hcode _ _)
    (watched_runCalled hI hcode _ _)

lemma watched_construct (message : Message) (a : Address) :
    Keeps I (construct i run message a) :=
  .bind (keeps_isTaken hI.stable a) fun _ =>
    .ite (.bind (keeps_report hI.stable nofun) fun _ => .pure _) <|
      .bind (keeps_prepareAccount hI.robust message a) fun _ => .bind .get fun _ =>
        .bind (hcode _ _) fun _ => .ite (keeps_deploy hI.robust _ _) (.pure _)

lemma watched_frame (message : Message) : Keeps I (frame i run message) := by
  unfold frame
  split
  · exact .ite (.pure _) <| .bind (keeps_lacksFunds hI.stable message) fun _ =>
      .ite (.pure _) (watched_guarded hI (watched_callBody hI hcode message _))
  · exact .ite (.pure _) <| .bind (watched_onWorld hI _) fun _ =>
      .ite (.pure _) <| .ite (.pure _) <| .bind (watched_onWorld hI _) fun _ => .bind (watched_onJournal hI _) fun _ =>
        watched_guarded hI (watched_construct hI hcode message _)

/-- A message keeps the property if the runs of frames do. -/
lemma watched_executeWith : RunKeeps I (executeWith i run) := by
  intro message m hm
  have h := watched_frame hI hcode message (m.entered message)
    (hI hm rfl (Context.tracedSteps_report rfl))
  rw [executeWith_run]
  split <;> rename_i hr <;> rw [hr] at h
  · exact hI h rfl (Context.tracedSteps_report rfl)
  · exact hI h rfl rfl

end

/-! ## Transactions -/

/-- What the code brings that has run without a message. -/
def codeResult (s : Substate) (outcome : Outcome) : FrameResult :=
  if outcome.isOk then { outcome, logs := s.logs, destroyed := s.destroyed, created := s.created }
  else { outcome }

lemma runCode_run [Ledger] (a : Address) (code : Bytes) (gasLimit : Nat) (m : Machine ι) :
    (runCode i a code gasLimit).run m =
      let f := Frame.start (codeInvocation m.context.env a code) gasLimit
      let (r, after) := (onState (guarded .cache Outcome.isOk (runFrame i (execute i) f))).run
        { m with substate := {} }
      (r.map (codeResult after.substate),
        { after with substate := m.substate, parked? := none }) := by
  change runCode i a code gasLimit m = _
  unfold runCode
  dsimp only
  rcases (onState (guarded .cache Outcome.isOk (runFrame i (execute i)
    (Frame.start (codeInvocation m.context.env a code) gasLimit)))).run
      { m with substate := {} } with ⟨e | outcome, after⟩
  · rfl
  · dsimp only [Except.map, codeResult]
    split <;> rfl

section

variable [Ledger] (hI : Watched I) (hexecute : RunKeeps I (execute i))

include hI hexecute

lemma watched_settle (intrinsicGas : Nat) : Keeps I (settle i intrinsicGas) :=
  have hsettled {α : Type} {op : ContextM StateError α}
      (h : ∀ steps, Keeps (Context.tracedSteps · = steps) op) : Keeps I (onState (onContext op)) :=
    keeps_onState (watched_onContext hI h)
  .bind .get fun _ => .bind (keeps_onState (watched_onWorld hI _)) fun _ =>
    .bind (keeps_require _) fun _ => .bind (watched_onJournal hI _) fun _ =>
      .bind (hsettled fun _ => Context.keeps_tracedSteps_chargeSender) fun _ =>
        .bind (keeps_onState (hexecute _)) fun _ =>
          .bind (hsettled fun _ => Context.keeps_tracedSteps_reimburse _) fun _ =>
            .bind (hsettled fun _ => Context.keeps_tracedSteps_reward _) fun _ =>
              .bind (hsettled fun _ => Context.keeps_tracedSteps_onWorld _) fun _ =>
                .bind (hsettled fun _ => Context.keeps_tracedSteps_cleanup) fun _ => .pure _

/-- A transaction keeps the property if messages do. -/
lemma watched_runTransaction : Keeps I (runTransaction i) :=
  .bind .get fun _ => .bind (keeps_require _) fun _ => .bind (keeps_require _) fun _ =>
    .bind (watched_guarded hI (watched_settle hI hexecute _)) fun _ =>
      .bind (keeps_onState (watched_onContext hI fun _ => Context.keeps_tracedSteps_flush)) fun _ =>
        .bind (keeps_report hI.stable nofun) fun _ => .pure _

lemma watched_transact (tx : Transaction) : Keeps I (transact i tx) := by
  intro m hm
  have h := watched_runTransaction hI hexecute (m.withTransaction tx) (hI hm rfl rfl)
  rw [transact_run]
  rcases hrun : (runTransaction i).run (m.withTransaction tx) with ⟨_ | receipt, m₁⟩ <;>
    rw [hrun] at h
  · exact hI h rfl (Context.tracedSteps_report rfl)
  · exact hI h rfl rfl

lemma watched_runMessage (message : Message) : Keeps I (runMessage i message) :=
  fun m hm => hI (hexecute message m hm) rfl rfl

omit hexecute in
lemma watched_runCode (a : Address) (code : Bytes) (gasLimit : Nat)
    (hcode : ∀ invocation, Keeps I (runFrame i (execute i) (Frame.start invocation gasLimit))) :
    Keeps I (runCode i a code gasLimit) := by
  intro m hm
  let f := Frame.start (codeInvocation m.context.env a code) gasLimit
  have hframe : Keeps I (guarded .cache Outcome.isOk (runFrame i (execute i) f)) :=
    watched_guarded hI (hcode _)
  have h := hframe { m with substate := {} } (hI hm rfl rfl)
  rw [runCode_run]
  exact hI h rfl rfl

end

/-! ### Up to the outermost frame, and from there -/

section

variable [Ledger]

/-- What a transaction does before its message runs. -/
def admission (env : Env) : MachineM Failure ι Unit := do
  let sender ← onState (onWorld (World.accountOrEmpty env.transaction.caller))
  require (env.checkSender sender)
  onJournal (Settlement.warmUp env ((Precompile.active env.features).map Precompile.address))
  onState (onContext Settlement.chargeSender)

/-- What a transaction does once its message has run. -/
def conclude (env : Env) (frame : FrameResult) :
    MachineM Failure ι (FrameResult × Gas.Meter × List Address) := do
  let gas := Gas.Meter.ofTransaction env.features env.transaction.gasLimit frame.outcome
  onState (onContext (Settlement.reimburse gas))
  onState (onContext (Settlement.reward gas))
  onState (onContext (Settlement.deleteDestroyed frame.destroyed))
  let cleaned ← onState (onContext Context.cleanup)
  return (frame, gas, cleaned)

lemma settle_eq (intrinsicGas : Nat) :
    settle i intrinsicGas = (do
      let env := (← get).context.env
      let tx := env.transaction
      admission env
      let frame ← onState (execute i (Message.ofTransaction tx (tx.gasLimit - intrinsicGas)))
      conclude env frame) := by
  unfold settle admission conclude
  simp only [bind_assoc]

/-- The transaction reaches its settlement: it passes its checks, its outermost frame is entered on
the machine `m₀`, and ends with that result on the machine `m₁`. -/
structure Settling (i : Inspector ι) (tx : Transaction) (m m₀ m₁ : Machine ι)
    (frame : FrameResult) : Prop where
  block : (m.withTransaction tx).context.env.checkBlock = .ok ()
  intrinsicGas : (m.withTransaction tx).context.env.intrinsicGas ≤ tx.gasLimit
  admitted : (admission (m.withTransaction tx).context.env).run (m.withTransaction tx).opened =
    (.ok (), m₀)
  executed : (execute i (Message.ofTransaction tx
    (tx.gasLimit - (m.withTransaction tx).context.env.intrinsicGas))).run m₀ = (.ok frame, m₁)

end

/-! ## The same execution, watched or not -/

section

variable {κ : Type} {E : List Event → List Event → Prop} {O : ι → κ → Prop}
  {W : World → World → Prop} {d : Nat} {m : Machine ι} {m' : Machine κ}

lemma Resembles.withTransaction (h : m.Resembles E W O d m') (tx : Transaction) :
    (m.withTransaction tx).Resembles E W O d (m'.withTransaction tx) :=
  ⟨⟨congrArg ({ · with transaction := tx }) h.context.env, h.context.world, h.context.journal,
    h.context.events⟩, h.observer, h.substate, h.depth, h.depth', h.parked⟩

variable [Event.Cumulative E]

/-- What is left over of two transactions that came to the same is alike. -/
lemma Resembles.finished (h : m.Resembles E W O d m') (r : Except Failure Receipt) :
    (finished (r, m)).2.Resembles E W O 0 (finished (r, m')).2 := by
  have hover : m.finishTransaction.Resembles E W O 0 m'.finishTransaction :=
    ⟨⟨h.context.env, h.context.world, rfl, h.context.events⟩, h.observer, rfl, rfl, rfl, rfl⟩
  cases r with
  | ok receipt => exact hover
  | error e => exact hover.moved (hover.context.report _)

/-! ### Over the same world -/

lemma alike_cleanup : Program.Alike (Context.Resembles E Eq) Context.cleanup Context.cleanup :=
  Context.leads_cleanup id fun _ => .of_alike (.refl _)

lemma alike_flush : Program.Alike (Context.Resembles E Eq) Context.flush Context.flush :=
  .bind (Context.alike_onWorld (.refl _)) fun _ => .bind (.modify fun _ _ h => h.report _) fun _ =>
    .bind (Context.alike_onWorld (.refl _)) fun _ => .pure _

variable [Ledger] {i : Inspector ι} {i' : Inspector κ}

omit [Event.Cumulative E] in
lemma alike_admission (env : Env) :
    Program.Alike (Resembles E Eq O d) (admission env : MachineM Failure ι Unit) (admission env) :=
  .bind (leads_onState (alike_onWorld (.refl _))) fun _ => .bind (alike_require _) fun _ =>
    .bind (alike_onJournal _) fun _ =>
      leads_onState (alike_onContext (Context.alike_chargeSender World.simulation_eq))

lemma alike_conclude (env : Env) (frame : FrameResult) :
    Program.Alike (Resembles E Eq O d)
      (conclude env frame : MachineM Failure ι (FrameResult × Gas.Meter × List Address))
      (conclude env frame) :=
  .bind (leads_onState (alike_onContext (Context.alike_reimburse World.simulation_eq _))) fun _ =>
    .bind (leads_onState (alike_onContext (Context.alike_reward World.simulation_eq _))) fun _ =>
      .bind (leads_onState (alike_onWorld (.refl _))) fun _ =>
        .bind (leads_onState (alike_onContext alike_cleanup)) fun _ => .pure _

lemma alike_settle (hi : i.Resembles E Eq O i') (intrinsicGas : Nat) :
    Program.Alike (Resembles E Eq O d) (settle i intrinsicGas) (settle i' intrinsicGas) := by
  rw [settle_eq, settle_eq]
  refine .get_bind fun m m' h => ?_
  dsimp only
  rw [h.context.env]
  exact .bind (alike_admission _) fun _ =>
    .bind (leads_onState (execute_alike World.simulation_eq hi _)) fun _ => alike_conclude _ _

/-- Inspectors that act alike see the same transaction. -/
lemma alike_runTransaction (hi : i.Resembles E Eq O i') :
    Program.Alike (Resembles E Eq O d) (runTransaction i) (runTransaction i') := by
  refine .get_bind fun m m' h => ?_
  dsimp only
  rw [h.context.env]
  refine .bind (alike_require _) fun _ => .bind (alike_require _) fun intrinsicGas => ?_
  refine .bind (alike_guarded World.simulation_eq (alike_settle hi intrinsicGas)) fun settled => ?_
  obtain ⟨frame, gas, cleaned⟩ := settled
  exact .bind (leads_onState (alike_onContext alike_flush)) fun _ =>
    .bind (alike_report _) fun _ => .pure _

lemma leads_transact (hi : i.Resembles E Eq O i') (tx : Transaction) :
    Program.Leads (Resembles E Eq O d) (Resembles E Eq O 0) (transact i tx) (transact i' tx) := by
  intro m m' h
  obtain ⟨heq, hends⟩ := alike_runTransaction hi _ _ (h.withTransaction tx)
  rw [transact_run, transact_run]
  rcases hr : (runTransaction i).run (m.withTransaction tx) with ⟨r, m₁⟩
  rcases hr' : (runTransaction i').run (m'.withTransaction tx) with ⟨r', m₁'⟩
  rw [hr, hr'] at heq hends
  obtain rfl : r = r' := heq
  exact ⟨by cases r <;> rfl, hends.finished r⟩

lemma alike_runMessage (hW : World.Simulation W) (hi : i.Resembles E W O i') (message : Message) :
    Program.Alike (Resembles E W O d) (runMessage i message) (runMessage i' message) := by
  intro m m' h
  obtain ⟨heq, hends⟩ := leads_onState (execute_alike hW hi message) m m' h
  exact ⟨heq, hends.context, hends.observer, hends.substate, hends.depth, hends.depth', rfl⟩

lemma alike_runCode (hW : World.Simulation W) (hi : i.Resembles E W O i') (a : Address)
    (code : Bytes) (gasLimit : Nat) :
    Program.Alike (Resembles E W O d) (runCode i a code gasLimit)
      (runCode i' a code gasLimit) := by
  intro m m' h
  rw [runCode_run, runCode_run, h.context.env]
  let f := Frame.start (codeInvocation m'.context.env a code) gasLimit
  have hframe : Program.Alike (Resembles E W O d)
      (guarded .cache Outcome.isOk (runFrame i (execute i) f))
      (guarded .cache Outcome.isOk (runFrame i' (execute i') f)) :=
    alike_guarded hW <|
      alike_runFrame hi (fun message _ => execute_alike hW hi message) hW (Nat.zero_le _)
  obtain ⟨heq, hends⟩ := leads_onState hframe _ _ (h.collected (s := {}) rfl)
  exact ⟨congrArg₂ (fun r s => Except.map (codeResult s) r) heq hends.substate, hends.context,
    hends.observer, h.substate, hends.depth, hends.depth', rfl⟩

omit [Ledger] in
/-- Programs that run alike do the same on a machine whether it is watched by the one inspector or
by the other. -/
lemma run_observedBy {p : MachineM ε ι α} {p' : MachineM ε κ α} {m m₁ : Machine ι}
    {r : Except ε α} (h : Program.Leads (Alike Eq O m.depth) (Alike Eq O d) p p')
    (hrun : p.run m = (r, m₁)) (observer' : κ) (ho : O m.observer observer') :
    ∃ observer₁, p'.run (m.observedBy observer') = (r, m₁.observedBy observer₁) ∧
      O m₁.observer observer₁ := by
  obtain ⟨heq, hends⟩ := h m (m.observedBy observer')
    ⟨⟨rfl, rfl, rfl, rfl⟩, ho, rfl, rfl, rfl, rfl⟩
  rcases hrun' : p'.run (m.observedBy observer') with ⟨r', m₁'⟩
  rw [hrun, hrun'] at heq hends
  obtain rfl : r = r' := heq
  have hobserver := hends.observer
  have hsame := hends.eq_observedBy
  dsimp only at hobserver hsame
  exact ⟨m₁'.observer, by rw [← hsame]; rfl, hobserver⟩

/-- A transaction reaches its settlement in the same way whether it is watched by the one inspector
or by the other. -/
lemma Settling.observedBy {tx : Transaction} {m m₀ m₁ : Machine ι} {frame : FrameResult}
    (h : Settling i tx m m₀ m₁ frame) (hi : i.Alike Eq O i') (observer' : κ)
    (ho : O m.observer observer') :
    ∃ observer₁, Settling i' tx (m.observedBy observer') (m₀.observedBy observer')
      (m₁.observedBy observer₁) frame := by
  -- The inspector takes no part until the outermost frame.
  obtain ⟨_, hadmitted, ho₀, rfl⟩ :=
    run_observedBy (O := fun o o' => O o o' ∧ o' = observer') (alike_admission _) h.admitted
      observer' ⟨ho, rfl⟩
  obtain ⟨observer₁, hexecuted, -⟩ :=
    run_observedBy (execute_alike World.simulation_eq hi _) h.executed _ ho₀
  exact ⟨observer₁, h.block, h.intrinsicGas, hadmitted, hexecuted⟩

end

end Machine

end Evm
