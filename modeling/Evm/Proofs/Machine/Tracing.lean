import Evm.Proofs.Machine.Rollback
import Evm.Proofs.Machine.Watching

/-!
# What the tracer reports

The tracer remembers where a frame is when an instruction begins, and reports it when one finishes.
It remembers one place only, for all frames. So its report describes the instruction that finished
unless one of another frame has finished in between; this takes a call or a creation, which runs the
frames below. To say so, `Tracer.pairing` notes which instructions have begun and pairs each with
its end. That changes nothing, and everything reported about instructions comes from a pair
(`Machine.traces_steps`). -/

namespace Evm

/-- Name of the next instruction. -/
def Frame.instructionName (f : Frame) : String :=
  (f.instruction?.map Instruction.name).getD "UNKNOWN"

namespace Tracer

/-- An instruction that has begun and finished. -/
structure Passage where
  /-- The frame when the instruction began. -/
  before : Frame
  /-- The frame when it had finished. -/
  after : Frame
  /-- How many instructions of other frames have finished in between. -/
  between : Nat
  /-- What was reported when it had finished. -/
  reported : TracedStep

/-- The report describes the instruction: where it was, what it was, how much gas the frame had
then, and how much less it has now. -/
structure Passage.Described (p : Passage) : Prop where
  pc : p.reported.pc = p.before.pc
  name : p.reported.name = p.before.instructionName
  gas : p.reported.gas = p.before.gas.remaining
  gasCost : p.reported.gasCost = p.before.gas.remaining - p.after.gas.remaining

/-- Notes of the instructions that have begun, each with the number of those finished before it, and
of those that have finished. -/
abbrev Passages := Notes (Frame × Nat) Passage

/-- An instruction begins. -/
def Passages.enter (notes : Passages) (f : Frame) : Passages := notes.begin (f, notes.ended.length)

/-- The latest instruction that has begun finishes. -/
def Passages.leave (notes : Passages) (f : Frame) (reported : TracedStep) : Passages :=
  notes.finish fun (before, count) => ⟨before, f, notes.ended.length - count, reported⟩

/-- The tracer, with notes of the instructions that have begun and finished. -/
def pairing : Inspector (Tracer × Passages) :=
  { inspector.beside with
    beforeStep := fun f => do
      modify fun (c, t, notes) => (c, t, notes.enter f)
      (beforeStep f).beside
    afterStep := fun f => do
      modify fun (c, t, notes) => (c, t, notes.leave f (t.traced f))
      (afterStep f).beside }

/-- Noting changes nothing. -/
lemma alike_pairing : Inspector.Alike Eq (fun t n => t = n.1) inspector pairing where
  start _ _ := .pure _
  beforeStep f := by
    rintro ⟨c, t⟩ ⟨c', t', notes⟩ ⟨hc, rfl⟩
    exact ⟨rfl, hc, rfl⟩
  afterStep f := by
    rintro ⟨c, t⟩ ⟨c', t', notes⟩ ⟨hc, rfl⟩
    exact ⟨rfl, hc.report _, rfl⟩
  log _ := by
    rintro ⟨c, t⟩ ⟨c', t', notes⟩ ⟨hc, rfl⟩
    exact ⟨rfl, hc.report _, rfl⟩
  call _ := by
    rintro ⟨c, t⟩ ⟨c', t', notes⟩ ⟨hc, rfl⟩
    exact ⟨rfl, hc.report _, rfl⟩
  callEnd _ _ := by
    rintro ⟨c, t⟩ ⟨c', t', notes⟩ ⟨hc, rfl⟩
    exact ⟨rfl, hc.report _, rfl⟩
  create _ := by
    rintro ⟨c, t⟩ ⟨c', t', notes⟩ ⟨hc, rfl⟩
    exact ⟨rfl, hc.report _, rfl⟩
  createEnd _ _ := by
    rintro ⟨c, t⟩ ⟨c', t', notes⟩ ⟨hc, rfl⟩
    exact ⟨rfl, hc.report _, rfl⟩
  selfDestruct _ _ _ := by
    rintro ⟨c, t⟩ ⟨c', t', notes⟩ ⟨hc, rfl⟩
    exact ⟨rfl, hc.report _, rfl⟩

end Tracer

namespace Machine

open Tracer

section

variable [Ledger] {ε α : Type}

/-- The instruction took the frame from what it was before to what it was after. It ran instructions
of other frames only by running a message, and if it ran none the report describes it. -/
structure Passed (p : Passage) : Prop where
  step : ∃ (run : Message → MachineM StateError (Tracer × Passages) FrameResult)
    (m : Machine (Tracer × Passages)),
    ((Exec.next (host pairing run)).perform (p.before, m)).1 = p.after
  described : p.between = 0 → p.Described
  runsMessage : p.between ≠ 0 → ∃ i, p.before.instruction? = some i ∧ i.runsMessage = true

/-- Everything reported about instructions since `earlier` is about one that has passed. Those of
`begun` have begun, and unless one has finished since there were `count`, the tracer is as it was.
-/
structure Traced (earlier : List TracedStep) (begun : List (Frame × Nat)) (t : Tracer) (count : Nat)
    (m : Machine (Tracer × Passages)) : Prop where
  begun : m.observer.2.begun = begun
  tracer : m.observer.1 = t ∧ m.observer.2.ended.length = count ∨
    count < m.observer.2.ended.length
  reported : m.context.tracedSteps = m.observer.2.ended.map Passage.reported ++ earlier
  passed : ∀ p ∈ m.observer.2.ended, Passed p

variable {earlier : List TracedStep} {begun : List (Frame × Nat)} {t : Tracer} {count : Nat}
  {run : Message → MachineM StateError (Tracer × Passages) FrameResult}
  {m m' : Machine (Tracer × Passages)}

lemma watched_traced : Watched (Traced earlier begun t count) := by
  intro m m' h hobserver hsteps
  refine ⟨?_, ?_, ?_, ?_⟩
  · rw [hobserver]
    exact h.begun
  · rw [hobserver]
    exact h.tracer
  · rw [hobserver, hsteps]
    exact h.reported
  · rw [hobserver]
    exact h.passed

omit [Ledger] in
/-- The reports of the tracer about anything but instructions leave it as it is. -/
lemma abides_pairing {I : Machine (Tracer × Passages) → Prop} (hI : Watched I) : Abides pairing I :=
  ⟨fun _ _ h => hI h rfl (Context.tracedSteps_report (e := .log _ _) rfl),
    fun _ _ h => hI h rfl (Context.tracedSteps_report (e := .call _ _ _ _) rfl),
    fun _ _ _ h => hI h rfl (Context.tracedSteps_report (e := .callEnd _ _) rfl),
    fun _ _ h => hI h rfl (Context.tracedSteps_report (e := .create _ _ _) rfl),
    fun _ _ _ h => hI h rfl (Context.tracedSteps_report (e := .createEnd _ _) rfl),
    fun _ _ _ _ h => hI h rfl (Context.tracedSteps_report (e := .selfDestruct _ _ _) rfl)⟩

/-! ## Instructions -/

/-- The machine once the tracer has seen an instruction begin. -/
def begins (f : Frame) (m : Machine (Tracer × Passages)) : Machine (Tracer × Passages) :=
  { m with observer :=
    ({ m.observer.1 with pc := f.pc, opcode := f.opcode, gas := f.gas.remaining },
      m.observer.2.enter f) }

/-- The machine once the tracer has seen an instruction finish. -/
def finishes (f : Frame) (m : Machine (Tracer × Passages)) : Machine (Tracer × Passages) :=
  { m with
    context := m.context.report (.step (m.observer.1.traced f))
    observer := ({ m.observer.1 with steps := m.observer.1.steps + 1 },
      m.observer.2.leave f (m.observer.1.traced f)) }

lemma Traced.begins (h : Traced earlier begun t count m) (f : Frame) :
    Traced earlier ((f, m.observer.2.ended.length) :: begun) (m.begins f).observer.1
      m.observer.2.ended.length (m.begins f) where
  begun := congrArg (_ :: ·) h.begun
  tracer := .inl ⟨rfl, rfl⟩
  reported := h.reported
  passed := h.passed

lemma Traced.count_le (h : Traced earlier begun t count m) :
    count ≤ m.observer.2.ended.length := by
  obtain ⟨-, rfl⟩ | hlt := h.tracer
  · exact le_rfl
  · exact hlt.le

lemma Traced.finishes {before after : Frame} {n : Nat} {t' : Tracer}
    (h : Traced earlier ((before, n) :: begun) t' n m) (hcount : count ≤ n)
    (hpassed : Passed ⟨before, after, m.observer.2.ended.length - n, m.observer.1.traced after⟩) :
    Traced earlier begun t count (m.finishes after) := by
  unfold Machine.finishes Passages.leave
  rw [Notes.finish_of_begun h.begun]
  refine ⟨rfl, .inr ?_, ?_, ?_⟩
  · exact Nat.lt_succ_of_le (hcount.trans h.count_le)
  · exact congrArg (_ :: ·) h.reported
  · rintro p (_ | ⟨_, hmem⟩)
    · exact hpassed
    · exact h.passed p hmem

/-- Running a message leaves the instructions that have begun. -/
def RunTraced (earlier : List TracedStep)
    (run : Message → MachineM StateError (Tracer × Passages) FrameResult) : Prop :=
  ∀ begun t count, RunKeeps (Traced earlier begun t count) run

/-- The report about an instruction describes it unless one of another frame has finished since it
began. -/
lemma described_traced {before after : Frame} {n : Nat}
    (h : Traced earlier begun (m'.begins before).observer.1 n m)
    (hinvocation : after.toInvocation = before.toInvocation)
    (hbetween : m.observer.2.ended.length - n = 0) :
    Passage.Described ⟨before, after, m.observer.2.ended.length - n,
      m.observer.1.traced after⟩ := by
  obtain ⟨htracer, -⟩ | hlt := h.tracer
  · rw [htracer]
    refine ⟨rfl, ?_, rfl, rfl⟩
    have hfeatures : after.features = before.features :=
      congrArg Invocation.features hinvocation
    change Tracer.instructionName _ after.features = _
    rw [hfeatures]
    rfl
  · exact absurd (Nat.sub_eq_zero_iff_le.1 hbetween) hlt.not_ge

/-- An instruction passes, from where the tracer sees it begin to where it sees it finish. -/
lemma step_traced (hrun : RunTraced earlier run) {f : Frame} (hf : f.isRunning = true)
    (h : Traced earlier begun t count m) :
    Traced earlier begun t count ((host pairing run).step f m).2 := by
  have hstep : (host pairing run).step f m =
      let (after, m₁) := (Exec.next (host pairing run)).perform (f, m.begins f)
      (after, m₁.finishes after) := by
    change (if f.isRunning then _ else _) = _
    rw [if_pos hf]
    rfl
  have hnext := watched_next watched_traced (abides_pairing watched_traced) (hrun _ _ _) f
    (h.begins f)
  have hlength : Watched fun m₁ : Machine (Tracer × Passages) =>
      m₁.observer.2.ended.length = m.observer.2.ended.length :=
    fun hm hobserver _ => (congrArg (fun o => o.2.ended.length) hobserver).trans hm
  have halone := watched_next_alone run hlength (abides_pairing hlength) (f := f) (m := m.begins f)
  have hreaches : (host pairing run).Reaches (f, m.begins f)
      ((Exec.next (host pairing run)).perform (f, m.begins f)) :=
    Exec.perform_reaches Exec.keeps_next
  have hinvocation := hreaches.invocation
  rw [hstep]
  rcases hperform : (Exec.next (host pairing run)).perform (f, m.begins f) with ⟨after, m₁⟩
  rw [hperform] at hnext halone hinvocation
  refine hnext.finishes h.count_le ⟨⟨run, _, congrArg Prod.fst hperform⟩,
    described_traced hnext hinvocation, fun hbetween => ?_⟩
  by_contra hnone
  refine hbetween (Nat.sub_eq_zero_of_le (halone (fun i hi => ?_) rfl).le)
  exact Bool.eq_false_iff.2 fun hmessage => hnone ⟨i, hi, hmessage⟩

lemma steps_traced (hrun : RunTraced earlier run) (fuel : Nat) {f : Frame}
    (h : Traced earlier begun t count m) :
    Traced earlier begun t count ((host pairing run).steps fuel f m).2 := by
  induction fuel generalizing f m with
  | zero => exact h
  | succ fuel ih =>
    unfold Host.steps
    split
    · rename_i hrunning
      exact ih (step_traced hrun hrunning h)
    · exact h

/-! ## Frames and messages -/

lemma runFrame_traced (hrun : RunTraced earlier run) (f : Frame) :
    Keeps (Traced earlier begun t count) (runFrame pairing run f) := by
  intro m hm
  rw [runFrame_eq]
  exact watched_traced.unparked (steps_traced hrun (f.gas.remaining + 1) (f := f) hm)

lemma executeWithin_traced (levels : Nat) : RunTraced earlier (executeWithin pairing levels) := by
  induction levels with
  | zero =>
    exact fun _ _ _ => watched_executeWith watched_traced fun _ _ =>
      runFrame_traced (fun _ _ _ _ => .pure _) _
  | succ levels ih =>
    exact fun _ _ _ => watched_executeWith watched_traced fun _ _ => runFrame_traced ih _

lemma execute_traced : RunTraced earlier (execute pairing) :=
  fun _ _ _ message => executeWithin_traced _ _ _ _ message

/-! ## Executions -/

/-- Pairing the instructions changes nothing. None has begun in the end without having finished, and
what was reported about instructions is what was reported about those that have passed. -/
def Paired (p : MachineM ε Tracer α) (p' : MachineM ε (Tracer × Passages) α) : Prop :=
  ∀ m : Machine Tracer, ∃ r m' notes, p.run m = (r, m') ∧
    p'.run (m.noting {}) = (r, m'.noting notes) ∧ notes.begun = [] ∧
    m'.context.tracedSteps = notes.ended.map Passage.reported ++ m.context.tracedSteps ∧
    ∀ p ∈ notes.ended, Passed p

lemma paired {p : MachineM ε Tracer α} {p' : MachineM ε (Tracer × Passages) α} {d' : Nat → Nat}
    (halike : ∀ d, Program.Leads (Alike Eq (fun t n => t = n.1) d)
      (Alike Eq (fun t n => t = n.1) (d' d)) p p')
    (htraced : ∀ earlier t, Keeps (Traced earlier [] t 0) p') : Paired p p' := by
  intro m
  rcases hrun : p.run m with ⟨r, m'⟩
  obtain ⟨⟨_, notes⟩, hrun', rfl⟩ :=
    run_observedBy (halike m.depth) hrun (m.observer, {}) rfl
  have hstart : Traced m.context.tracedSteps [] m.observer 0 (m.noting {}) :=
    ⟨rfl, .inl ⟨rfl, rfl⟩, rfl, fun _ hmem => absurd hmem List.not_mem_nil⟩
  have hends := htraced _ _ _ hstart
  change p'.run (m.noting {}) = _ at hrun'
  rw [hrun'] at hends
  exact ⟨r, m', notes, rfl, hrun', hends.begun, hends.reported, hends.passed⟩

/-- Everything the tracer reports about instructions is about one that has passed in a frame, and it
describes that instruction unless one of another frame has finished since it began, which calls and
creations can bring about only. -/
theorem traces_steps :
    (∀ tx, Paired (transact inspector tx) (transact pairing tx)) ∧
    (∀ message, Paired (runMessage inspector message) (runMessage pairing message)) ∧
    ∀ a code gasLimit,
      Paired (runCode inspector a code gasLimit) (runCode pairing a code gasLimit) := by
  refine ⟨fun tx => ?_, fun message => ?_, fun a code gasLimit => ?_⟩
  · exact paired (fun _ => leads_transact alike_pairing tx) fun _ _ =>
      watched_transact watched_traced (execute_traced _ _ _) tx
  · exact paired (fun _ => alike_runMessage World.simulation_eq alike_pairing message) fun _ _ =>
      watched_runMessage watched_traced (execute_traced _ _ _) message
  · exact paired (fun _ => alike_runCode World.simulation_eq alike_pairing a code gasLimit) fun _ _ =>
      watched_runCode watched_traced a code gasLimit fun _ => runFrame_traced execute_traced _

end

/-- Two contracts: the code of 0x100 stops, and that of 0x200 calls its caller. -/
def relay : Machine Tracer :=
  let world := World.ofStore {} .ordered
  start (.ofWorld {} { world with
    accounts := (world.accounts.put 0x100 { codeHash := 7 }).put 0x200 { codeHash := 8 }
    code := (world.code.put 7 (Code.ofHashed #[0x00] 7)).put 8
      (Code.ofHashed #[0x36, 0x36, 0x36, 0x36, 0x36, 0x33, 0x5a, 0xf1, 0x00] 8) }) {}

/-- What is reported about a call that has run an instruction is where that instruction was, and how
much gas the frame below had then. -/
theorem not_described_relay :
    ∃ p ∈ ((runMessage pairing (.call 0x100 0x200 0 #[] 10000)).run
        (relay.noting {})).2.observer.2.ended,
      p.before.pc = 7 ∧ p.before.opcode = 0xf1 ∧ p.before.gas.remaining = 9986 ∧
        p.after.gas.remaining = 7386 ∧ p.reported.pc = 0 ∧ p.reported.gas = 7271 ∧
        p.reported.gasCost = 0 ∧ ¬p.Described := by
  have h : ((runMessage pairing (.call 0x100 0x200 0 #[] 10000)).run
      (relay.noting {})).2.observer.2.ended.any (fun p =>
        p.before.pc = 7 ∧ p.before.opcode = 0xf1 ∧ p.before.gas.remaining = 9986 ∧
          p.after.gas.remaining = 7386 ∧ p.reported.pc = 0 ∧ p.reported.gas = 7271 ∧
          p.reported.gasCost = 0) = true := by
    decide +kernel
  obtain ⟨p, hmem, hp⟩ := List.any_eq_true.1 h
  obtain ⟨hpc, hopcode, hbefore, hafter, hreported, hgas, hcost⟩ := of_decide_eq_true hp
  refine ⟨p, hmem, hpc, hopcode, hbefore, hafter, hreported, hgas, hcost, fun hdescribed => ?_⟩
  have hsame := hdescribed.pc
  rw [hreported, hpc] at hsame
  cases hsame

end Machine

end Evm
