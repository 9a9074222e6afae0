import Evm.Proofs.Machine.Isolation
import Evm.Proofs.Machine.Termination

/-!
# Collecting in one place and rolling back

A frame works with a copy of the sets of the frame around it, and its result brings what it added.
The same comes out if all frames collect in one place: the logs in one list and the addresses in one
pair of sets, which start from what the message carries, and which are truncated to what they were
at the start of a frame that does not succeed (`rollback`). Every destruction finds out the same
about the destroyed account. To say so, both executions note what destructions find out; the notes
do not change an execution (`Machine.execute_rollback`).
-/

namespace Evm

variable {ι ν α : Type}

/-- What a destruction finds out about the destroyed account. -/
structure Verdict where
  wasDestroyed : Bool
  wasCreated : Bool
  deriving DecidableEq, Repr

/-- What an inspector does, next to notes that it does not see. -/
def Hook.beside (hook : Hook ι α) : Hook (ι × ν) α := fun (c, (i, notes)) =>
  let (a, (c, i)) := hook.run (c, i)
  (a, (c, (i, notes)))

/-- The inspector next to notes that it does not see. -/
def Inspector.beside (inspector : Inspector ι) : Inspector (ι × ν) where
  start f := (inspector.start f).beside
  beforeStep f := (inspector.beforeStep f).beside
  afterStep f := (inspector.afterStep f).beside
  log entry := (inspector.log entry).beside
  call request := (inspector.call request).beside
  callEnd request response := (inspector.callEnd request response).beside
  create request := (inspector.create request).beside
  createEnd request response := (inspector.createEnd request response).beside
  selfDestruct a beneficiary value := (inspector.selfDestruct a beneficiary value).beside

/-- What was collected, truncated to what it was before. -/
def Substate.backTo (s before : Substate) : Substate where
  logs := s.logs.take before.logs.size
  destroyed := before.destroyed
  created := before.created

namespace Machine

/-! ## Noting what destructions find out -/

/-- The machine with notes next to the state of the inspector. -/
def noting (m : Machine ι) (notes : ν) : Machine (ι × ν) := m.observedBy (m.observer, notes)

/-- Notes what a destruction of the account finds out. -/
def note (a : Address) (m : Machine (ι × List Verdict)) : Machine (ι × List Verdict) :=
  { m with observer := (m.observer.1,
      ⟨m.substate.destroyed.contains a, m.substate.created.contains a⟩ :: m.observer.2) }

variable [Ledger]

/-- The machine as a host that notes what destructions find out. -/
def notingHost (inspector : Inspector ι)
    (run : Message → MachineM StateError (ι × List Verdict) FrameResult) :
    Host (Machine (ι × List Verdict)) :=
  { host inspector.beside run with
    selfDestruct := fun a beneficiary => do
      modify (note a)
      selfDestruct inspector.beside a beneficiary }

/-- The frame of a message that notes what destructions find out. -/
def notingFrame (inspector : Inspector ι)
    (run : Message → MachineM StateError (ι × List Verdict) FrameResult) (message : Message) :
    MachineM StateError (ι × List Verdict) FrameResult :=
  frameBy (runFrameOn inspector.beside (notingHost inspector run)) message

/-- The frame of a message with at most `levels` levels of messages below it, which are run in one
of the two ways to run a message whose frame is known. -/
def notingFrameWithin (inspector : Inspector ι)
    (execute : (Message → MachineM StateError (ι × List Verdict) FrameResult) →
      Message → MachineM StateError (ι × List Verdict) FrameResult) :
    Nat → Message → MachineM StateError (ι × List Verdict) FrameResult
  | 0 => notingFrame inspector
      fun message => return { outcome := .idle .callTooDeep message.gasLimit }
  | levels + 1 => notingFrame inspector (execute (notingFrameWithin inspector execute levels))

/-- Runs a message, noting what destructions find out. -/
def executeNoting (inspector : Inspector ι) (message : Message) :
    MachineM StateError (ι × List Verdict) FrameResult :=
  executeBy (notingFrameWithin inspector executeBy (callDepthLimit + 1 - message.depth)) message

/-! ## Collecting in one place -/

omit [Ledger] in
/-- Runs a message in a frame that collects where the frame around it does, whatever sets the
message carries. What was collected since is taken back if the frame does not succeed; the result
itself brings nothing. -/
def executeInPlace (body : Message → MachineM StateError ι FrameResult) (message : Message) :
    MachineM StateError ι FrameResult := do
  report <| .frameStart message.depth message.caller message.to? message.value message.gasLimit
  let outer ← get
  set { outer with depth := message.depth }
  let result ← tryCatch (body message) fun e => do
    modify fun m => { m with depth := outer.depth, substate := m.substate.backTo outer.substate }
    throw e
  modify fun m => { m with
    depth := outer.depth
    substate := if result.isOk then m.substate else m.substate.backTo outer.substate }
  report <| .frameEnd message.depth result.outcome.status result.outcome.gas.spent
  return result

/-- Runs a message and all messages below it collecting in one place, which starts from the sets of
the message. The result brings what was added to it. -/
def rollback (inspector : Inspector ι) (message : Message) :
    MachineM StateError (ι × List Verdict) FrameResult := do
  let outer ← get
  set { outer with substate := Substate.ofMessage message }
  let levels := callDepthLimit + 1 - message.depth
  let result ← tryCatch
    (executeInPlace (notingFrameWithin inspector executeInPlace levels) message) fun e => do
      modify fun m => { m with substate := outer.substate }
      throw e
  let collected := (← get).substate
  modify fun m => { m with substate := outer.substate }
  return { result with
    logs := collected.logs
    destroyed := collected.destroyed \ message.destroyed
    created := collected.created \ message.created }

/-! ## Notes change nothing -/

/-- The first machine is the second without its notes. -/
def Noted (m : Machine ι) (m' : Machine (ι × ν)) : Prop := m = m'.observedBy m'.observer.1

omit [Ledger] in
lemma coupled_noted : Coupled (Noted (ι := ι) (ν := ν)) where
  context := by
    rintro _ m' rfl
    rfl
  parked := by
    rintro _ m' rfl
    rfl
  depth := by
    rintro _ m' rfl
    rfl
  destroyed := by
    rintro _ m' rfl
    rfl
  created := by
    rintro _ m' rfl
    rfl
  moved _ _ := by
    rintro rfl
    rfl
  restored := by
    rintro _ _ _ _ rfl rfl
    rfl
  logs _ := by
    rintro rfl
    rfl
  destroys _ := by
    rintro rfl
    rfl
  creates _ := by
    rintro rfl
    rfl

omit [Ledger] in
lemma noted_inspect (hook : Hook ι α) :
    Evm.Alike (Noted (ν := ν)) (inspect hook) (inspect hook.beside) := by
  rintro _ m' rfl
  exact ⟨rfl, rfl⟩

omit [Ledger] in
lemma noted_beside (inspector : Inspector ι) :
    Inspects (Noted (ν := ν)) inspector inspector.beside where
  start _ := noted_inspect _
  beforeStep _ := noted_inspect _
  afterStep _ := noted_inspect _
  log _ := noted_inspect _
  call _ := noted_inspect _
  callEnd _ _ := noted_inspect _
  create _ := noted_inspect _
  createEnd _ _ := noted_inspect _
  selfDestruct _ _ _ := noted_inspect _

omit [Ledger] in
/-- A message of a frame does the same with and without notes if its own frame does. -/
lemma noted_children {body : Message → MachineM StateError ι FrameResult}
    {body' : Message → MachineM StateError (ι × ν) FrameResult}
    (hbody : ∀ message, Program.Alike Noted (body message) (body' message)) :
    Children Noted body body' := by
  rintro message _ m' rfl
  obtain ⟨heq, h₁⟩ := hbody (m'.handDown message) _ m' rfl
  have hmessage : (m'.observedBy m'.observer.1).handDown message = m'.handDown message := rfl
  rw [hmessage]
  unfold runChild
  rcases hr : (body (m'.handDown message)).run (m'.observedBy m'.observer.1) with ⟨r, m₁⟩
  rcases hr' : (body' (m'.handDown message)).run m' with ⟨r', m₁'⟩
  rw [hr, hr'] at heq h₁
  obtain rfl : r = r' := heq
  obtain rfl : m₁ = m₁'.observedBy m₁'.observer.1 := h₁
  cases r with
  | error e => exact ⟨rfl, rfl⟩
  | ok result => exact ⟨rfl, rfl⟩

omit [Ledger] in
lemma noted_executeBy {body : Message → MachineM StateError ι FrameResult}
    {body' : Message → MachineM StateError (ι × ν) FrameResult}
    (hbody : ∀ message, Program.Alike Noted (body message) (body' message)) (message : Message) :
    Program.Alike Noted (executeBy body message) (executeBy body' message) := by
  rintro _ m' rfl
  obtain ⟨heq, h₁⟩ := hbody message ((m'.observedBy m'.observer.1).entered message)
    (m'.entered message) rfl
  rw [executeBy_run, executeBy_run]
  rcases hr : (body message).run ((m'.observedBy m'.observer.1).entered message) with ⟨r, m₁⟩
  rcases hr' : (body' message).run (m'.entered message) with ⟨r', m₁'⟩
  rw [hr, hr'] at heq h₁
  obtain rfl : r = r' := heq
  obtain rfl : m₁ = m₁'.observedBy m₁'.observer.1 := h₁
  cases r with
  | error e => exact ⟨rfl, rfl⟩
  | ok result => exact ⟨rfl, rfl⟩

/-- A frame does the same with and without notes if its messages do. -/
lemma noted_frame (inspector : Inspector ι) {run : Message → MachineM StateError ι FrameResult}
    {run' : Message → MachineM StateError (ι × List Verdict) FrameResult}
    (hrun : ∀ message, Program.Alike Noted (run message) (run' message)) (message : Message) :
    Program.Alike Noted (frame inspector run message) (notingFrame inspector run' message) := by
  have hhost := coupled_noted.host (noted_beside inspector) (noted_children hrun)
  refine coupled_noted.frameBy (fun f => coupled_noted.runFrameOn (noted_beside inspector) ?_ f)
    message
  refine { hhost with selfDestruct := fun a beneficiary m m' h => ?_ }
  have hnote : (notingHost inspector run').selfDestruct a beneficiary m' =
      selfDestruct inspector.beside a beneficiary (m'.note a) := by
    have hmodify : OptionT.run (modify (note a) : HostM (Machine (ι × List Verdict)) Unit) m' =
        (some (), m'.note a) := rfl
    exact HostM.run_bind_some hmodify
  change _ = ((notingHost inspector run').selfDestruct a beneficiary m').1 ∧
    Noted _ ((notingHost inspector run').selfDestruct a beneficiary m').2
  rw [hnote]
  exact hhost.selfDestruct a beneficiary m (m'.note a) h

lemma noted_executeWithin (inspector : Inspector ι) (levels : Nat) (message : Message) :
    Program.Alike Noted (executeWithin inspector levels message)
      (executeBy (notingFrameWithin inspector executeBy levels) message) := by
  induction levels generalizing message with
  | zero => exact noted_executeBy (noted_frame inspector fun _ => .pure _) message
  | succ levels ih => exact noted_executeBy (noted_frame inspector ih) message

/-! ## In one place as frame by frame -/

/-- The second machine collects in one place what the first collects frame by frame: it holds the
logs from before the frame as well, and the sets of the frame go on from those before it. -/
structure Tracks (outer : Substate) (m m' : Machine ι) : Prop where
  same : m' = { m with substate := { m.substate with logs := outer.logs ++ m.substate.logs } }
  destroyed : ∀ a ∈ outer.destroyed, a ∈ m.substate.destroyed
  created : ∀ a ∈ outer.created, a ∈ m.substate.created

omit [Ledger] in
lemma coupled_tracks (outer : Substate) : Coupled (Tracks (ι := ι) outer) where
  context h := by
    obtain ⟨rfl, -, -⟩ := h
    rfl
  parked h := by
    obtain ⟨rfl, -, -⟩ := h
    rfl
  depth h := by
    obtain ⟨rfl, -, -⟩ := h
    rfl
  destroyed h := by
    obtain ⟨rfl, -, -⟩ := h
    rfl
  created h := by
    obtain ⟨rfl, -, -⟩ := h
    rfl
  moved _ _ h := by
    obtain ⟨rfl, hdestroyed, hcreated⟩ := h
    exact ⟨rfl, hdestroyed, hcreated⟩
  restored h h' := by
    obtain ⟨rfl, hdestroyed, hcreated⟩ := h
    obtain ⟨rfl, -, -⟩ := h'
    exact ⟨rfl, hdestroyed, hcreated⟩
  logs entry h := by
    obtain ⟨rfl, hdestroyed, hcreated⟩ := h
    exact ⟨by simp only [Array.append_push], hdestroyed, hcreated⟩
  destroys a h := by
    obtain ⟨rfl, hdestroyed, hcreated⟩ := h
    exact ⟨rfl, fun b hb => Std.ExtTreeSet.mem_insert.2 (.inr (hdestroyed b hb)), hcreated⟩
  creates a h := by
    obtain ⟨rfl, hdestroyed, hcreated⟩ := h
    exact ⟨rfl, hdestroyed, fun b hb => Std.ExtTreeSet.mem_insert.2 (.inr (hcreated b hb))⟩

omit [Ledger] in
lemma tracks_inspect (outer : Substate) (hook : Hook ι α) :
    Evm.Alike (Tracks outer) (inspect hook) (inspect hook) := by
  rintro m _ ⟨rfl, hdestroyed, hcreated⟩
  exact ⟨rfl, rfl, hdestroyed, hcreated⟩

omit [Ledger] in
lemma tracks_inspects (outer : Substate) (inspector : Inspector ι) :
    Inspects (Tracks outer) inspector inspector where
  start _ := tracks_inspect _ _
  beforeStep _ := tracks_inspect _ _
  afterStep _ := tracks_inspect _ _
  log _ := tracks_inspect _ _
  call _ := tracks_inspect _ _
  callEnd _ _ := tracks_inspect _ _
  create _ := tracks_inspect _ _
  createEnd _ _ := tracks_inspect _ _
  selfDestruct _ _ _ := tracks_inspect _ _

/-- The machine in the frame of a message that starts and collects where the frame around it does. -/
def joined (m : Machine ι) (message : Message) : Machine ι :=
  { m.entered message with substate := m.substate }

omit [Ledger] in
lemma executeInPlace_run (body : Message → MachineM StateError ι FrameResult) (message : Message)
    (m : Machine ι) :
    (executeInPlace body message).run m =
      match (body message).run (m.joined message) with
      | (.ok result, m') =>
        (.ok result,
          { m' with
            context := m'.context.report (.frameEnd message.depth result.outcome.status
              result.outcome.gas.spent)
            depth := m.depth
            substate := if result.isOk then m'.substate else m'.substate.backTo m.substate })
      | (.error e, m') =>
        (.error e, { m' with depth := m.depth, substate := m'.substate.backTo m.substate }) := by
  unfold executeInPlace report
  rw [Program.run_bind_ok (Program.run_modify _ m), Program.run_bind_ok (Program.run_get _),
    Program.run_bind_ok (Program.run_set _ _), Program.run_bind, Program.run_tryCatch]
  rcases hrun : (body message).run (m.joined message) with ⟨_ | result, m'⟩ <;>
    unfold joined entered at hrun <;> rw [hrun] <;> rfl

omit [Ledger] in
/-- A frame that collects in one place starts beside one that works with copies of the same sets. -/
lemma tracks_entered {m m' : Machine ι} {outer : Substate} (message : Message)
    (hsame : m' = { m with substate := outer }) (hdestroyed : outer.destroyed = message.destroyed)
    (hcreated : outer.created = message.created) :
    Tracks outer (m.entered message) (m'.joined message) := by
  unfold joined entered Substate.ofMessage
  rw [← hdestroyed, ← hcreated]
  refine ⟨?_, fun _ ha => ha, fun _ ha => ha⟩
  rw [hsame]
  simp only [Array.append_empty]

namespace Tracks

variable {outer before : Substate} {m m' n n' : Machine ι}

omit [Ledger] in
/-- Taking back what a frame collected leaves what there was before it. -/
lemma backTo (h : Tracks before m m') : m'.substate.backTo before = before := by
  obtain ⟨rfl, -, -⟩ := h
  have htake : (before.logs ++ m.substate.logs).take before.logs.size = before.logs := by simp
  unfold Substate.backTo
  rw [htake]

omit [Ledger] in
/-- After a frame that failed everything is as before it. -/
lemma restored (h : Tracks outer m m') (hn : Tracks before n n') :
    Tracks outer { n with substate := m.substate } { n' with substate := m'.substate } := by
  obtain ⟨rfl, hdestroyed, hcreated⟩ := h
  obtain ⟨rfl, -, -⟩ := hn
  exact ⟨rfl, hdestroyed, hcreated⟩

omit [Ledger] in
/-- After a frame that succeeded, merging what its result brings comes to what was collected. -/
lemma collected (h : Tracks outer m m') (hn : Tracks m'.substate n n') {result : FrameResult}
    (hok : result.isOk = true) (message : Message) :
    Tracks outer
      { n with substate :=
        m.substate.merge (result.withSubstate (m.handDown message) n.substate) } n' := by
  have hunion {s t : AddressSet} (hsub : ∀ a ∈ s, a ∈ t) : s ∪ (t \ s) = t := by
    refine Std.ExtTreeSet.ext_mem fun a => ?_
    rw [Std.ExtTreeSet.mem_union_iff, Std.ExtTreeSet.mem_diff_iff]
    refine ⟨fun ha => ha.elim (hsub a) And.left, fun ha => ?_⟩
    exact (em (a ∈ s)).imp id fun hs => ⟨ha, hs⟩
  obtain ⟨rfl, hdestroyed, hcreated⟩ := h
  obtain ⟨rfl, hdestroyed₁, hcreated₁⟩ := hn
  have hmerge : m.substate.merge (result.withSubstate (m.handDown message) n.substate) =
      { n.substate with logs := m.substate.logs ++ n.substate.logs } := by
    unfold Substate.merge
    rw [if_pos ((FrameResult.isOk_withSubstate _ _ _).trans hok)]
    unfold FrameResult.withSubstate
    rw [if_pos hok]
    unfold handDown
    dsimp only
    rw [hunion hdestroyed₁, hunion hcreated₁]
  rw [hmerge]
  refine ⟨?_, fun a ha => hdestroyed₁ a (hdestroyed a ha), fun a ha => hcreated₁ a (hcreated a ha)⟩
  simp only [Array.append_assoc]

omit [Ledger] in
/-- What is the same on both machines may change in the same way. -/
lemma aside (h : Tracks outer m m') (context : Context) (depth : Nat)
    (parked? : Option StateError) :
    Tracks outer { m with context, depth, parked? } { m' with context, depth, parked? } := by
  obtain ⟨rfl, hdestroyed, hcreated⟩ := h
  exact ⟨rfl, hdestroyed, hcreated⟩

end Tracks

omit [Ledger] in
/-- The messages of a frame do the same in one place as with copies of the sets, if their own frames
do. -/
lemma tracks_children {body body' : Message → MachineM StateError ι FrameResult}
    (hbare : ∀ message, Gives FrameResult.Bare (body message))
    (hbody : ∀ outer message, Program.Alike (Tracks outer) (body message) (body' message))
    (outer : Substate) :
    Children (Tracks outer) (executeBy body) (executeInPlace body') := by
  intro message m m' h
  have hsame : m' = { m with substate := m'.substate } := by
    obtain ⟨rfl, -, -⟩ := h
    rfl
  obtain ⟨heq, h₁⟩ := hbody m'.substate (m.handDown message) _ _
    (tracks_entered (m.handDown message) hsame
      ((coupled_tracks outer).destroyed h).symm ((coupled_tracks outer).created h).symm)
  have hdepth : m'.depth = m.depth := ((coupled_tracks outer).depth h).symm
  unfold runChild
  rw [executeBy_run, executeInPlace_run]
  rcases hr : (body (m.handDown message)).run (m.entered (m.handDown message)) with ⟨r, m₁⟩
  rcases hr' : (body' (m.handDown message)).run (m'.joined (m.handDown message)) with ⟨r', m₁'⟩
  rw [hr, hr'] at heq h₁
  obtain rfl : r = r' := heq
  have hcontext : m₁'.context = m₁.context := ((coupled_tracks _).context h₁).symm
  have hparked : m₁'.parked? = m₁.parked? := ((coupled_tracks _).parked h₁).symm
  -- The frame around parks an error, merges a result that brings nothing, or merges what was
  -- collected: in one place the first two take back, and the third keeps.
  cases r with
  | error e =>
    dsimp only
    rw [h₁.backTo, hdepth]
    unfold park
    rw [hcontext]
    exact ⟨rfl, (h.restored h₁).aside _ _ _⟩
  | ok result =>
    have hresult : result.Bare := hbare _ _ _ _ hr
    dsimp only
    rw [hresult.merge, hdepth, hcontext, hparked]
    cases hok : result.isOk with
    | false =>
      rw [FrameResult.withSubstate_of_failed hok, hresult.merge, if_neg Bool.false_ne_true, h₁.backTo]
      exact ⟨rfl, (h.restored h₁).aside _ _ _⟩
    | true =>
      rw [if_pos rfl]
      rw [FrameResult.outcome_withSubstate, FrameResult.address?_withSubstate]
      exact ⟨rfl, (h.collected h₁ hok message).aside _ _ _⟩

/-- A frame does the same in one place as with copies of the sets, if its messages do. -/
lemma tracks_frame (inspector : Inspector ι)
    {run run' : Message → MachineM StateError (ι × List Verdict) FrameResult}
    (hrun : ∀ outer, Children (Tracks outer) run run') (outer : Substate) (message : Message) :
    Program.Alike (Tracks outer) (notingFrame inspector run message)
      (notingFrame inspector run' message) := by
  have hinspects := tracks_inspects outer (Inspector.beside (ν := List Verdict) inspector)
  have hhost := (coupled_tracks outer).host hinspects (hrun outer)
  refine (coupled_tracks outer).frameBy
    (fun f => (coupled_tracks outer).runFrameOn hinspects ?_ f) message
  refine { hhost with selfDestruct := fun a beneficiary => ?_ }
  refine .bind (.modify fun m m' h => ?_) fun _ => hhost.selfDestruct a beneficiary
  obtain ⟨rfl, hdestroyed, hcreated⟩ := h
  exact ⟨rfl, hdestroyed, hcreated⟩

omit [Ledger] in
lemma tracks_idle (outer : Substate) :
    Children (Tracks (ι := ι) outer)
      (fun message => return { outcome := .idle .callTooDeep message.gasLimit })
      (fun message => return { outcome := .idle .callTooDeep message.gasLimit }) :=
  fun _ _ _ h => ⟨rfl, h⟩

lemma gives_notingFrameWithin (inspector : Inspector ι)
    (execute : (Message → MachineM StateError (ι × List Verdict) FrameResult) →
      Message → MachineM StateError (ι × List Verdict) FrameResult) (levels : Nat)
    (message : Message) :
    Gives FrameResult.Bare (notingFrameWithin inspector execute levels message) := by
  cases levels with
  | zero => exact gives_frameBy message
  | succ levels => exact gives_frameBy message

/-- Frames do the same in one place as with copies of the sets, however many levels of messages
there are below them. -/
lemma tracks_frameWithin (inspector : Inspector ι) (levels : Nat) (outer : Substate)
    (message : Message) :
    Program.Alike (Tracks outer) (notingFrameWithin inspector executeBy levels message)
      (notingFrameWithin inspector executeInPlace levels message) := by
  induction levels generalizing outer message with
  | zero => exact tracks_frame inspector tracks_idle outer message
  | succ levels ih =>
    have hbare := gives_notingFrameWithin inspector executeBy levels
    exact tracks_frame inspector (tracks_children hbare ih) outer message

/-! ## Executions -/

/-- What is collected in one place is brought by the result, and the frame around goes on with what
it had collected. -/
lemma rollback_run (inspector : Inspector ι) (message : Message)
    (m : Machine (ι × List Verdict)) :
    (rollback inspector message).run m =
      match (executeInPlace (notingFrameWithin inspector executeInPlace
          (callDepthLimit + 1 - message.depth)) message).run
        { m with substate := Substate.ofMessage message } with
      | (.ok result, m') =>
        (.ok { result with
            logs := m'.substate.logs
            destroyed := m'.substate.destroyed \ message.destroyed
            created := m'.substate.created \ message.created },
          { m' with substate := m.substate })
      | (.error e, m') => (.error e, { m' with substate := m.substate }) := by
  unfold rollback
  rw [Program.run_bind_ok (Program.run_get m), Program.run_bind_ok (Program.run_set _ _),
    Program.run_bind, Program.run_tryCatch]
  rcases (executeInPlace (notingFrameWithin inspector executeInPlace
    (callDepthLimit + 1 - message.depth)) message).run
      { m with substate := Substate.ofMessage message } with ⟨_ | result, m'⟩ <;> rfl

omit [Ledger] in
/-- A frame that failed brings nothing, and nothing was added to what the message carries. -/
lemma bare_ofMessage {result : FrameResult} (h : result.Bare) (message : Message) :
    { result with
      logs := (Substate.ofMessage message).logs
      destroyed := (Substate.ofMessage message).destroyed \ message.destroyed
      created := (Substate.ofMessage message).created \ message.created } = result := by
  obtain ⟨outcome, logs, address?, destroyed, created⟩ := result
  obtain ⟨rfl, rfl, rfl, -⟩ := h
  unfold Substate.ofMessage
  dsimp only
  rw [AddressSet.diff_self, AddressSet.diff_self]

omit [Ledger] in
/-- A result brings what was collected, and is not taken back, beyond the sets of the message. -/
lemma Tracks.brought {message : Message} {n n' : Machine ι} {result : FrameResult}
    (h : Tracks (.ofMessage message) n n') (hbare : result.Bare) :
    let kept := if result.isOk then n'.substate else n'.substate.backTo (.ofMessage message)
    result.withSubstate message n.substate = { result with
      logs := kept.logs
      destroyed := kept.destroyed \ message.destroyed
      created := kept.created \ message.created } := by
  have hback := h.backTo
  obtain ⟨rfl, -, -⟩ := h
  dsimp only at hback ⊢
  cases hok : result.isOk with
  | false =>
    rw [FrameResult.withSubstate_of_failed hok, if_neg Bool.false_ne_true, hback,
      bare_ofMessage hbare]
  | true =>
    have hlogs : (Substate.ofMessage message).logs ++ n.substate.logs = n.substate.logs :=
      Array.empty_append
    rw [if_pos rfl, hlogs]
    unfold FrameResult.withSubstate
    rw [if_pos hok]

/-- Collecting in one place comes to what the execution of a message gives. -/
lemma executeNoting_eq_rollback (inspector : Inspector ι) (message : Message)
    (m : Machine (ι × List Verdict)) :
    (executeNoting inspector message).run m = (rollback inspector message).run m := by
  unfold executeNoting
  rw [rollback_run, executeInPlace_run, executeBy_run]
  have hbare := gives_notingFrameWithin inspector executeBy (callDepthLimit + 1 - message.depth)
    message
  have hentered : Tracks (Substate.ofMessage message) (m.entered message)
      (joined { m with substate := .ofMessage message } message) :=
    tracks_entered message rfl rfl rfl
  obtain ⟨heq, h₁⟩ := tracks_frameWithin inspector (callDepthLimit + 1 - message.depth)
    (Substate.ofMessage message) message (m.entered message) _ hentered
  rcases hr : (notingFrameWithin inspector executeBy (callDepthLimit + 1 - message.depth)
    message).run (m.entered message) with ⟨r, m₁⟩
  generalize hr' : (notingFrameWithin inspector executeInPlace (callDepthLimit + 1 - message.depth)
    message).run _ = ended at heq h₁ ⊢
  obtain ⟨r', m₁'⟩ := ended
  rw [hr] at heq h₁
  obtain rfl : r = r' := heq
  cases r with
  | error e =>
    obtain ⟨rfl, -, -⟩ := h₁
    rfl
  | ok result =>
    have hbrought := h₁.brought (hbare _ _ _ hr)
    obtain ⟨rfl, -, -⟩ := h₁
    dsimp only at hbrought ⊢
    rw [hbrought]

/-- A message gives the same, and leaves the machine the same, if all frames collect in one place:
its logs in their order, the destroyed accounts and the new ones. Every destruction finds out the
same in both, in the same order, and noting that changes nothing. -/
theorem execute_rollback (inspector : Inspector ι) (message : Message) (m : Machine ι) :
    ∃ r m' verdicts, (execute inspector message).run m = (r, m') ∧
      (executeNoting inspector message).run (m.noting []) = (r, m'.noting verdicts) ∧
      (rollback inspector message).run (m.noting []) = (r, m'.noting verdicts) := by
  obtain ⟨heq, hnoted⟩ := noted_executeWithin inspector (callDepthLimit + 1 - message.depth) message
    m (m.noting []) rfl
  rcases hr : (execute inspector message).run m with ⟨r, m₁⟩
  rcases hr' : (executeNoting inspector message).run (m.noting []) with ⟨r', m₁'⟩
  have hrollback := executeNoting_eq_rollback inspector message (m.noting [])
  unfold execute at hr
  unfold executeNoting at hr'
  rw [hr, hr'] at heq hnoted
  obtain rfl : r = r' := heq
  obtain rfl : m₁ = m₁'.observedBy m₁'.observer.1 := hnoted
  exact ⟨r, _, m₁'.observer.2, rfl, rfl, hrollback ▸ hr'⟩

end Machine

end Evm
