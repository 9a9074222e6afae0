import Evm.Machine.Frame
import Evm.Proofs.Execution.Congruence
import Evm.Proofs.Machine.Runs

/-!
# Machines that cannot be told apart

Two machines over worlds that answer alike, watched by inspectors that act alike, run every message
alike: they give the same result and end up over worlds that answer alike again. What is asked of
the worlds is listed in `World.Simulation` and what is asked of the inspectors in
`Inspector.Resembles`; the operations of the machine as a host, frames and messages follow in the
order in which they are defined, and `executeWith_alike` is the step from the messages of a frame to
the frame. What the two machines have reported need not be the same either (`Event.Cumulative`).
-/

namespace Evm

/-! ## Worlds -/

/-- Both succeed with related states, or both fail alike. -/
inductive AlikeResult {σ τ ε : Type} (R : σ → τ → Prop) : Except ε σ → Except ε τ → Prop
  | ok {s : σ} {t : τ} (h : R s t) : AlikeResult R (.ok s) (.ok t)
  | error (e : ε) : AlikeResult R (.error e) (.error e)

lemma AlikeResult.refl {σ ε : Type} (r : Except ε σ) : AlikeResult Eq r r := by
  cases r with
  | error e => exact .error e
  | ok s => exact .ok rfl

namespace World

/-- The operations that execution performs on the world answer alike in related worlds and leave
related worlds. -/
structure Simulation (W : World → World → Prop) : Prop where
  account : ∀ a, Program.Alike W (account a) (account a)
  codeOfHash : ∀ hash, Program.Alike W (codeOfHash hash) (codeOfHash hash)
  slot : ∀ a index, Program.Alike W (slot a index) (slot a index)
  flushedSlot : ∀ a index, Program.Alike W (flushedSlot a index) (flushedSlot a index)
  setSlot : ∀ a index value, Program.Alike W (setSlot a index value) (setSlot a index value)
  putAccount : ∀ a record, Program.Alike W (putAccount a record) (putAccount a record)
  putCode : ∀ code, Program.Alike W (putCode code) (putCode code)
  checkpoint : ∀ {w w'}, W w w' → W w.checkpoint w'.checkpoint
  commit : ∀ {w w'}, W w w' → AlikeResult W w.commit w'.commit
  revert : ∀ {w w'}, W w w' → AlikeResult W w.revert w'.revert
  depth : ∀ {w w'}, W w w' → w.depth = w'.depth

namespace Simulation

variable {W : World → World → Prop} (hW : Simulation W)

include hW

lemma accountOrEmpty (a : Address) : Program.Alike W (accountOrEmpty a) (accountOrEmpty a) :=
  .bind (hW.account a) fun _ => .pure _

lemma exists? (a : Address) : Program.Alike W (exists? a) (exists? a) :=
  .bind (hW.account a) fun _ => .pure _

lemma codeOf (a : Address) : Program.Alike W (codeOf a) (codeOf a) := by
  refine .bind (hW.account a) fun record? => ?_
  cases record? with
  | none => exact .pure _
  | some record => exact hW.codeOfHash _

end Simulation

/-- Every world answers like itself. -/
lemma simulation_eq : Simulation Eq where
  account _ := .refl _
  codeOfHash _ := .refl _
  slot _ _ := .refl _
  flushedSlot _ _ := .refl _
  setSlot _ _ _ := .refl _
  putAccount _ _ := .refl _
  putCode _ := .refl _
  checkpoint h := congrArg checkpoint h
  commit h := h ▸ .refl _
  revert h := h ▸ .refl _
  depth h := congrArg depth h

end World

/-! ## Contexts -/

/-- Reports that are related stay so when the same is reported next. -/
class Event.Cumulative (E : List Event → List Event → Prop) : Prop where
  report : ∀ {events events'} (e : Event), E events events' → E (e :: events) (e :: events')

instance : Event.Cumulative Eq where
  report e h := congrArg (e :: ·) h

namespace Context

variable {E : List Event → List Event → Prop} {W : World → World → Prop} {c c' : Context}

/-- The two contexts differ in their worlds and in what was reported only, which are related. -/
structure Resembles (E : List Event → List Event → Prop) (W : World → World → Prop)
    (c c' : Context) : Prop where
  env : c.env = c'.env
  world : W c.world c'.world
  journal : c.journal = c'.journal
  events : E c.events c'.events

/-- The two contexts differ in their worlds only, which are related. -/
abbrev Alike (W : World → World → Prop) : Context → Context → Prop := Resembles Eq W

lemma Resembles.features (h : c.Resembles E W c') : c.features = c'.features :=
  congrArg Env.features h.env

lemma leads_onWorld {α : Type} {W' : World → World → Prop} {op op' : WorldM α}
    (h : Program.Leads W W' op op') :
    Program.Leads (Resembles E W) (Resembles E W') (onWorld op) (onWorld op') := by
  intro c c' hc
  obtain ⟨heq, hw⟩ := h c.world c'.world hc.world
  exact ⟨heq, hc.env, hw, hc.journal, hc.events⟩

lemma alike_onWorld {α : Type} {op op' : WorldM α} (h : Program.Alike W op op') :
    Program.Alike (Resembles E W) (onWorld op) (onWorld op') :=
  leads_onWorld h

variable [Event.Cumulative E]

lemma Resembles.report (h : c.Resembles E W c') (e : Event) :
    (c.report e).Resembles E W (c'.report e) :=
  ⟨h.env, h.world, h.journal, Event.Cumulative.report e h.events⟩

variable (hW : World.Simulation W)

include hW

lemma Resembles.checkpoint (h : c.Resembles E W c') : c.checkpoint.Resembles E W c'.checkpoint := by
  have hw := hW.checkpoint h.world
  have hopened : Resembles E W
      { c with world := c.world.checkpoint, journal := c.journal.checkpoint }
      { c' with world := c'.world.checkpoint, journal := c'.journal.checkpoint } :=
    ⟨h.env, hw, congrArg Journal.checkpoint h.journal, h.events⟩
  have hdepth : c.world.checkpoint.depth = c'.world.checkpoint.depth := hW.depth hw
  unfold Context.checkpoint depth
  dsimp only
  rw [hdepth]
  exact hopened.report _

lemma alike_commit : Program.Alike (Resembles E W) commit commit := by
  intro c c' h
  have hw := hW.commit h.world
  have hj : c.journal.commit? = c'.journal.commit? := congrArg Journal.commit? h.journal
  change (commit c).1 = (commit c').1 ∧ Resembles E W (commit c).2 (commit c').2
  unfold commit
  rw [hj]
  generalize c.world.commit = r, c'.world.commit = r' at hw ⊢
  cases hw with
  | error e => exact ⟨rfl, h⟩
  | @ok w w' hw =>
    cases c'.journal.commit? with
    | none => exact ⟨rfl, h.env, hw, h.journal, h.events⟩
    | some journal =>
      refine ⟨rfl, h.env, hw, rfl, ?_⟩
      change E (Event.commit w.depth :: c.events) (Event.commit w'.depth :: c'.events)
      rw [hW.depth hw]
      exact Event.Cumulative.report _ h.events

lemma alike_revert : Program.Alike (Resembles E W) revert revert := by
  intro c c' h
  have hw := hW.revert h.world
  have hj : c.journal.revert? = c'.journal.revert? := congrArg Journal.revert? h.journal
  change (revert c).1 = (revert c').1 ∧ Resembles E W (revert c).2 (revert c').2
  unfold revert
  rw [hj]
  generalize c.world.revert = r, c'.world.revert = r' at hw ⊢
  cases hw with
  | error e => exact ⟨rfl, h⟩
  | @ok w w' hw =>
    cases c'.journal.revert? with
    | none => exact ⟨rfl, h.env, hw, h.journal, h.events⟩
    | some journal =>
      refine ⟨rfl, h.env, hw, rfl, ?_⟩
      change E (Event.revert w.depth :: c.events) (Event.revert w'.depth :: c'.events)
      rw [hW.depth hw]
      exact Event.Cumulative.report _ h.events

lemma Resembles.abandon (h : c.Resembles E W c') : c.abandon.Resembles E W c'.abandon := by
  obtain ⟨heq, hc⟩ := alike_revert hW c c' h
  unfold Context.abandon
  rcases hr : revert.run c with ⟨r, c₁⟩
  rcases hr' : revert.run c' with ⟨r', c₁'⟩
  rw [hr, hr'] at heq hc
  obtain rfl : r = r' := heq
  cases r with
  | error e => exact hc.report _
  | ok a => exact hc

end Context

/-! ## Inspectors -/

/-- What two inspectors see. -/
def Hook.Seen {ι κ : Type} (E : List Event → List Event → Prop) (W : World → World → Prop)
    (O : ι → κ → Prop) (x : Context × ι) (y : Context × κ) : Prop :=
  x.1.Resembles E W y.1 ∧ O x.2 y.2

/-- The inspectors act alike, except perhaps at the start of a frame nested too deeply. -/
structure Inspector.Resembles {ι κ : Type} (E : List Event → List Event → Prop)
    (W : World → World → Prop) (O : ι → κ → Prop) (i : Inspector ι) (i' : Inspector κ) : Prop where
  start : ∀ f, f.depth ≤ callDepthLimit → Evm.Alike (Hook.Seen E W O) (i.start f) (i'.start f)
  beforeStep : ∀ f, Evm.Alike (Hook.Seen E W O) (i.beforeStep f) (i'.beforeStep f)
  afterStep : ∀ f, Evm.Alike (Hook.Seen E W O) (i.afterStep f) (i'.afterStep f)
  log : ∀ entry, Evm.Alike (Hook.Seen E W O) (i.log entry) (i'.log entry)
  call : ∀ request, Evm.Alike (Hook.Seen E W O) (i.call request) (i'.call request)
  callEnd : ∀ request response,
    Evm.Alike (Hook.Seen E W O) (i.callEnd request response) (i'.callEnd request response)
  create : ∀ request, Evm.Alike (Hook.Seen E W O) (i.create request) (i'.create request)
  createEnd : ∀ request response,
    Evm.Alike (Hook.Seen E W O) (i.createEnd request response) (i'.createEnd request response)
  selfDestruct : ∀ a beneficiary value, Evm.Alike (Hook.Seen E W O)
    (i.selfDestruct a beneficiary value) (i'.selfDestruct a beneficiary value)

/-- The inspectors act alike and report the same. -/
abbrev Inspector.Alike {ι κ : Type} (W : World → World → Prop) (O : ι → κ → Prop) :
    Inspector ι → Inspector κ → Prop :=
  Inspector.Resembles Eq W O

/-- The inspector that does nothing acts like itself. -/
lemma Inspector.alike_silent {E : List Event → List Event → Prop} {W : World → World → Prop}
    {O : Unit → Unit → Prop} : Inspector.Resembles E W O .silent .silent :=
  ⟨fun _ _ => .pure _, fun _ => .pure _, fun _ => .pure _, fun _ => .pure _, fun _ => .pure _,
    fun _ _ => .pure _, fun _ => .pure _, fun _ _ => .pure _, fun _ _ _ => .pure _⟩

/-! ## Machines -/

namespace Machine

variable {ι κ ε α : Type} {E : List Event → List Event → Prop} {W : World → World → Prop}
  {O : ι → κ → Prop} {d : Nat}

/-- The two machines run a frame at that depth, and differ in related worlds, observers and reports
only. -/
structure Resembles (E : List Event → List Event → Prop) (W : World → World → Prop)
    (O : ι → κ → Prop) (d : Nat) (m : Machine ι) (m' : Machine κ) : Prop where
  context : m.context.Resembles E W m'.context
  observer : O m.observer m'.observer
  substate : m.substate = m'.substate
  depth : m.depth = d
  depth' : m'.depth = d
  parked : m.parked? = m'.parked?

/-- The two machines run a frame at that depth, and differ in related worlds and observers only. -/
abbrev Alike (W : World → World → Prop) (O : ι → κ → Prop) (d : Nat) :
    Machine ι → Machine κ → Prop :=
  Resembles Eq W O d

lemma leads_onContext {W' : World → World → Prop} {op op' : ContextM ε α}
    (h : Program.Leads (Context.Resembles E W) (Context.Resembles E W') op op') :
    Program.Leads (Resembles E W O d) (Resembles E W' O d) (onContext op : MachineM ε ι α)
      (onContext op') := by
  intro m m' hm
  obtain ⟨heq, hc⟩ := h m.context m'.context hm.context
  exact ⟨heq, hc, hm.observer, hm.substate, hm.depth, hm.depth', hm.parked⟩

lemma alike_onContext {op op' : ContextM ε α} (h : Program.Alike (Context.Resembles E W) op op') :
    Program.Alike (Resembles E W O d) (onContext op : MachineM ε ι α) (onContext op') :=
  leads_onContext h

lemma alike_onWorld {op op' : WorldM α} (h : Program.Alike W op op') :
    Program.Alike (Resembles E W O d) (onWorld op : MachineM StateError ι α) (onWorld op') :=
  alike_onContext (Context.alike_onWorld h)

section

variable {m : Machine ι} {m' : Machine κ}

lemma Resembles.journal (h : m.Resembles E W O d m') {j j' : Journal} (hj : j = j') :
    Resembles E W O d { m with context := { m.context with journal := j } }
      { m' with context := { m'.context with journal := j' } } :=
  ⟨⟨h.context.env, h.context.world, hj, h.context.events⟩, h.observer, h.substate, h.depth,
    h.depth', h.parked⟩

lemma Resembles.collected (h : m.Resembles E W O d m') {s s' : Substate} (hs : s = s') :
    Resembles E W O d { m with substate := s } { m' with substate := s' } :=
  ⟨h.context, h.observer, hs, h.depth, h.depth', h.parked⟩

lemma Resembles.moved (h : m.Resembles E W O d m') {c c' : Context} (hc : c.Resembles E W c') :
    Resembles E W O d { m with context := c } { m' with context := c' } :=
  ⟨hc, h.observer, h.substate, h.depth, h.depth', h.parked⟩

lemma Resembles.park [Event.Cumulative E] (h : m.Resembles E W O d m') (e : StateError) :
    (m.park e).Resembles E W O d (m'.park e) :=
  ⟨h.context.report _, h.observer, h.substate, h.depth, h.depth', rfl⟩

end

lemma alike_onJournal (f : Journal → Journal) :
    Program.Alike (Resembles E W O d) (onJournal f : MachineM ε ι Unit) (onJournal f) :=
  .modify fun _ _ hm => hm.journal (congrArg f hm.context.journal)

lemma alike_report [Event.Cumulative E] (e : Event) :
    Program.Alike (Resembles E W O d) (report e : MachineM ε ι Unit) (report e) :=
  .modify fun _ _ hm =>
    ⟨hm.context.report e, hm.observer, hm.substate, hm.depth, hm.depth', hm.parked⟩

lemma alike_inspect {hook : Hook ι α} {hook' : Hook κ α}
    (h : Evm.Alike (Hook.Seen E W O) hook hook') :
    Evm.Alike (Resembles E W O d) (inspect hook) (inspect hook') := by
  intro m m' hm
  obtain ⟨heq, hc, ho⟩ := h (m.context, m.observer) (m'.context, m'.observer)
    ⟨hm.context, hm.observer⟩
  exact ⟨heq, hc, ho, hm.substate, hm.depth, hm.depth', hm.parked⟩

/-! ## The machine as a host -/

lemma alike_access (a : Address) :
    HostM.Alike (Resembles E W O d) (access a : HostM (Machine ι) Bool) (access a) :=
  fun _ _ hm => ⟨congrArg (fun j => some (Journal.access j a).1) hm.context.journal,
    hm.journal (congrArg (fun j => (Journal.access j a).2) hm.context.journal)⟩

lemma alike_accessSlot (s : Slot) :
    HostM.Alike (Resembles E W O d) (accessSlot s : HostM (Machine ι) Bool) (accessSlot s) :=
  fun _ _ hm => ⟨congrArg (fun j => some (Journal.accessSlot j s).1) hm.context.journal,
    hm.journal (congrArg (fun j => (Journal.accessSlot j s).2) hm.context.journal)⟩

lemma alike_loadTransient (a : Address) (index : Word) :
    Evm.Alike (Resembles E W O d) (loadTransient a index : StateM (Machine ι) Word)
      (loadTransient a index) :=
  fun _ _ hm => ⟨congrArg (Journal.tload · ⟨a, index⟩) hm.context.journal, hm⟩

lemma alike_storeTransient (a : Address) (index value : Word) :
    Evm.Alike (Resembles E W O d) (storeTransient a index value : StateM (Machine ι) Unit)
      (storeTransient a index value) :=
  fun _ _ hm => ⟨rfl, hm.journal (congrArg (Journal.tstore · ⟨a, index⟩ value) hm.context.journal)⟩

variable {i : Inspector ι} {i' : Inspector κ}

lemma alike_log (hi : i.Resembles E W O i') (entry : Log) :
    Evm.Alike (Resembles E W O d) (log i entry) (log i' entry) :=
  .bind (alike_inspect (hi.log entry)) fun _ _ _ hm =>
    ⟨rfl, hm.collected (congrArg (fun s => { s with logs := s.logs.push entry }) hm.substate)⟩

section

variable [Event.Cumulative E]

lemma alike_attempt {op op' : WorldM α} (h : Program.Alike W op op') :
    HostM.Alike (Resembles E W O d) (attempt op : HostM (Machine ι) α) (attempt op') := by
  intro m m' hm
  obtain ⟨heq, hm₁⟩ := alike_onWorld (O := O) h m m' hm
  change (attempt op m).1 = (attempt op' m').1 ∧
    Resembles E W O d (attempt op m).2 (attempt op' m').2
  unfold attempt
  rcases hr : (onWorld op : MachineM StateError ι α).run m with ⟨r, m₁⟩
  rcases hr' : (onWorld op' : MachineM StateError κ α).run m' with ⟨r', m₁'⟩
  rw [hr, hr'] at heq hm₁
  obtain rfl : r = r' := heq
  cases r with
  | error e => exact ⟨rfl, hm₁.park e⟩
  | ok a => exact ⟨rfl, hm₁⟩

section

variable (hW : World.Simulation W)

include hW

lemma alike_presence (a : Address) :
    HostM.Alike (Resembles E W O d) (presence a : HostM (Machine ι) _) (presence a) :=
  .bind (alike_access a) fun _ => .bind (alike_attempt (hW.account a)) fun _ => .pure _

lemma alike_balance (a : Address) :
    HostM.Alike (Resembles E W O d) (balance a : HostM (Machine ι) _) (balance a) :=
  .bind (alike_access a) fun _ => .bind (alike_attempt (hW.accountOrEmpty a)) fun _ => .pure _

lemma alike_code (a : Address) :
    HostM.Alike (Resembles E W O d) (code a : HostM (Machine ι) _) (code a) :=
  .bind (alike_access a) fun _ => .bind (alike_attempt (hW.codeOf a)) fun _ => .pure _

lemma alike_codeHash (a : Address) :
    HostM.Alike (Resembles E W O d) (codeHash a : HostM (Machine ι) _) (codeHash a) := by
  refine .bind (alike_access a) fun _ => .bind (alike_attempt (hW.account a)) fun record? => ?_
  cases record? with
  | none => exact .pure _
  | some record => exact .pure _

lemma alike_loadSlot (a : Address) (index : Word) :
    HostM.Alike (Resembles E W O d) (loadSlot a index : HostM (Machine ι) _) (loadSlot a index) :=
  .bind (alike_accessSlot _) fun _ => .bind (alike_attempt (hW.slot a index)) fun _ => .pure _

lemma alike_storeSlot (a : Address) (index value : Word) :
    HostM.Alike (Resembles E W O d) (storeSlot a index value : HostM (Machine ι) _)
      (storeSlot a index value) :=
  .bind (alike_accessSlot _) fun _ => .bind (alike_attempt (hW.slot a index)) fun _ =>
    .bind (alike_attempt (hW.flushedSlot a index)) fun _ =>
      .bind (alike_attempt (hW.setSlot a index value)) fun _ => .pure _

omit hW in
lemma alike_deposit [Ledger] (balance value : Word) :
    Program.Alike W (Ledger.deposit balance value) (Ledger.deposit balance value) := by
  unfold Ledger.deposit
  cases Ledger.add balance value with
  | error e => exact .throw e
  | ok sum => exact .pure sum

omit hW in
lemma alike_withdraw [Ledger] (balance value : Word) :
    Program.Alike W (Ledger.withdraw balance value) (Ledger.withdraw balance value) := by
  unfold Ledger.withdraw
  cases Ledger.sub balance value with
  | error e => exact .throw e
  | ok rest => exact .pure rest

lemma alike_sweep [Ledger] (a beneficiary : Address) (record target : Account) (deletes : Bool) :
    Program.Alike W (sweep a beneficiary record target deletes)
      (sweep a beneficiary record target deletes) :=
  .ite
    (.bind (alike_deposit _ _) fun _ => .bind (hW.putAccount _ _) fun _ => hW.putAccount _ _)
    (hW.putAccount _ _)

end

lemma alike_selfDestruct [Ledger] (hW : World.Simulation W) (hi : i.Resembles E W O i')
    (a beneficiary : Address) :
    HostM.Alike (Resembles E W O d) (selfDestruct i a beneficiary)
      (selfDestruct i' a beneficiary) := by
  refine .get_bind fun m₀ m₀' h₀ => ?_
  have hfeatures : m₀.features = m₀'.features := h₀.context.features
  rw [hfeatures]
  refine .bind (alike_access beneficiary) fun _ => .bind (alike_attempt (hW.account _)) fun _ =>
    .bind (alike_attempt (hW.accountOrEmpty a)) fun record => .get_bind fun m₁ m₁' h₁ => ?_
  rw [h₁.substate]
  refine .bind (alike_attempt (alike_sweep hW _ _ _ _ _)) fun _ => ?_
  refine .bind (.modify fun m m' hm => ?_) fun _ => ?_
  · have htouched := congrArg (fun j => (Journal.touch j a).touch beneficiary) hm.context.journal
    exact (hm.journal htouched).collected rfl
  · exact .bind (.lift (alike_inspect (hi.selfDestruct _ _ _))) fun _ => .pure _

/-! ## Calls and creations -/

section

variable {run : Message → MachineM StateError ι FrameResult}
  {run' : Message → MachineM StateError κ FrameResult}

lemma alike_runChild {message : Message}
    (hrun : Program.Alike (Resembles E W O d) (run message) (run' message)) :
    Evm.Alike (Resembles E W O d) (runChild run message) (runChild run' message) := by
  intro m m' hm
  obtain ⟨heq, hm₁⟩ := hrun m m' hm
  unfold runChild
  rcases hr : (run message).run m with ⟨r, m₁⟩
  rcases hr' : (run' message).run m' with ⟨r', m₁'⟩
  rw [hr, hr'] at heq hm₁
  obtain rfl : r = r' := heq
  cases r with
  | error e => exact ⟨rfl, hm₁.park e⟩
  | ok result => exact ⟨rfl, hm₁.collected (congrArg (Substate.merge · result) hm₁.substate)⟩

variable (hi : i.Resembles E W O i') (hrun : ∀ message : Message, message.depth = d + 1 →
  Program.Alike (Resembles E W O d) (run message) (run' message))

include hi hrun

lemma alike_call (request : CallRequest) :
    Evm.Alike (Resembles E W O d) (call i run request) (call i' run' request) := by
  refine .bind (alike_inspect (hi.call request)) fun answer => ?_
  rcases answer with ⟨request, _ | response⟩
  · refine .get_bind fun m m' hm => ?_
    have hmessage : m.handDown (.ofCall request (m.depth + 1)) =
        m'.handDown (.ofCall request (m'.depth + 1)) := by
      unfold handDown
      rw [hm.substate, hm.depth, hm.depth']
    have hchild := alike_runChild
      (hrun (m'.handDown (.ofCall request (m'.depth + 1))) (congrArg (· + 1) hm.depth'))
    rw [hmessage]
    exact Evm.Alike.bind hchild (fun _ => alike_inspect (hi.callEnd _ _)) m m' hm
  · exact .pure response

lemma alike_create (request : CreateRequest) :
    Evm.Alike (Resembles E W O d) (create i run request) (create i' run' request) := by
  refine .bind (alike_inspect (hi.create request)) fun answer => ?_
  rcases answer with ⟨request, _ | response⟩
  · refine .get_bind fun m m' hm => ?_
    have hmessage : m.handDown (.ofCreate request (m.depth + 1)) =
        m'.handDown (.ofCreate request (m'.depth + 1)) := by
      unfold handDown
      rw [hm.substate, hm.depth, hm.depth']
    have hchild := alike_runChild
      (hrun (m'.handDown (.ofCreate request (m'.depth + 1))) (congrArg (· + 1) hm.depth'))
    rw [hmessage]
    exact Evm.Alike.bind hchild (fun _ => alike_inspect (hi.createEnd _ _)) m m' hm
  · exact .pure response

/-- As hosts of a frame the machines cannot be told apart, if the messages of the frame run
alike. -/
theorem alike_host [Ledger] (hW : World.Simulation W) :
    (host i run).Alike (Resembles E W O d) (host i' run') where
  env hm := hm.context.env
  beforeStep f := alike_inspect (hi.beforeStep f)
  afterStep f := alike_inspect (hi.afterStep f)
  presence := alike_presence hW
  balance := alike_balance hW
  code := alike_code hW
  codeHash := alike_codeHash hW
  loadSlot := alike_loadSlot hW
  storeSlot := alike_storeSlot hW
  loadTransient := alike_loadTransient
  storeTransient := alike_storeTransient
  log := alike_log hi
  selfDestruct := alike_selfDestruct hW hi
  call := alike_call hi hrun
  create := alike_create hi hrun

/-- A frame runs alike on both machines, unless it is nested too deeply. -/
lemma alike_runFrame [Ledger] (hW : World.Simulation W) {f : Frame} (hf : f.depth ≤ callDepthLimit) :
    Program.Alike (Resembles E W O d) (runFrame i run f) (runFrame i' run' f) := by
  intro m m' hm
  obtain ⟨hstart, hm₁⟩ := alike_inspect (hi.start f hf) m m' hm
  change (runFrame i run f m).1 = (runFrame i' run' f m').1 ∧
    Resembles E W O d (runFrame i run f m).2 (runFrame i' run' f m').2
  unfold runFrame
  rcases hs : inspect (i.start f) m with ⟨f₁, m₁⟩
  rcases hs' : inspect (i'.start f) m' with ⟨f₁', m₁'⟩
  rw [hs, hs'] at hstart hm₁
  obtain rfl : f₁ = f₁' := hstart
  obtain ⟨hrun, hm₂⟩ := (alike_host hi hrun hW).run f₁ m₁ m₁' hm₁
  dsimp only
  rcases hr : (host i run).run f₁ m₁ with ⟨f₂, m₂⟩
  rcases hr' : (host i' run').run f₁ m₁' with ⟨f₂', m₂'⟩
  rw [hr, hr'] at hrun hm₂
  obtain rfl : f₂ = f₂' := hrun
  have hparked : m₂.parked? = m₂'.parked? := hm₂.parked
  dsimp only
  rw [hparked]
  cases m₂'.parked? with
  | none => exact ⟨rfl, hm₂⟩
  | some e =>
    exact ⟨rfl, hm₂.context, hm₂.observer, hm₂.substate, hm₂.depth, hm₂.depth', rfl⟩

end

end

/-! ## Frames -/

section

variable (hW : World.Simulation W)

include hW

lemma alike_moveValue [Ledger] (features : Features) (sender receiver : Address) (value : Word) :
    Program.Alike W (moveValue features sender receiver value)
      (moveValue features sender receiver value) :=
  .ite
    (.ite (.bind (hW.exists? receiver) fun _ => .ite (hW.putAccount _ _) (.pure _)) (.pure _))
    (.bind (hW.accountOrEmpty sender) fun _ => .bind (alike_withdraw _ _) fun _ =>
      .bind (hW.putAccount _ _) fun _ => .bind (hW.accountOrEmpty receiver) fun _ =>
        .bind (alike_deposit _ _) fun _ => hW.putAccount _ _)

lemma alike_transfer [Ledger] (sender receiver : Address) (value : Word) :
    Program.Alike (Resembles E W O d) (transfer sender receiver value : MachineM StateError ι Unit)
      (transfer sender receiver value) := by
  refine .bind (alike_onJournal _) fun _ => .get_bind fun m m' hm => ?_
  have hfeatures : m.features = m'.features := hm.context.features
  rw [hfeatures]
  exact alike_onWorld (alike_moveValue hW _ _ _ _)

omit hW in
lemma alike_runPrecompile [Event.Cumulative E] (p : Precompile) (message : Message) :
    Program.Alike (Resembles E W O d) (runPrecompile p message : MachineM StateError ι FrameResult)
      (runPrecompile p message) := by
  refine .get_bind fun m m' hm => ?_
  have hfeatures : m.features = m'.features := hm.context.features
  rw [hfeatures]
  dsimp only
  cases p.run m'.features message.data message.gasLimit with
  | error e => exact .bind (alike_report _) fun _ => .pure _
  | ok output => exact .pure _

lemma alike_lacksFunds (message : Message) :
    Program.Alike (Resembles E W O d) (lacksFunds message : MachineM StateError ι Bool)
      (lacksFunds message) :=
  .ite (.bind (alike_onWorld (hW.accountOrEmpty _)) fun _ => .pure _) (.pure _)

lemma alike_calledCode (message : Message) :
    Program.Alike (Resembles E W O d) (calledCode message : MachineM StateError ι Code)
      (calledCode message) := by
  unfold calledCode
  cases message.code? with
  | none => exact alike_onWorld (hW.codeOf _)
  | some code => exact .pure code

lemma alike_isTaken (a : Address) :
    Program.Alike (Resembles E W O d) (isTaken a : MachineM StateError ι Bool) (isTaken a) := by
  refine .bind (alike_onWorld (hW.account a)) fun record? => ?_
  cases record? with
  | none => exact .pure _
  | some record => exact .pure _

lemma alike_prepareAccount [Ledger] (message : Message) (a : Address) :
    Program.Alike (Resembles E W O d) (prepareAccount message a : MachineM StateError ι Unit)
      (prepareAccount message a) := by
  refine .bind (alike_onWorld (hW.accountOrEmpty a)) fun record => .get_bind fun m m' hm => ?_
  have hfeatures : m.features = m'.features := hm.context.features
  rw [hfeatures]
  refine .bind (alike_onWorld (hW.putAccount _ _)) fun _ => .bind (alike_transfer hW _ _ _) fun _ => ?_
  exact .modify fun _ _ hm =>
    hm.collected (congrArg (fun s => { s with created := s.created.insert a }) hm.substate)

lemma alike_deploy (a : Address) (o : Outcome) :
    Program.Alike (Resembles E W O d) (deploy a o : MachineM StateError ι FrameResult)
      (deploy a o) := by
  refine .get_bind fun m m' hm => ?_
  have hdeployment : deployment m.features m.context.env.config.codeLimit o =
      deployment m'.features m'.context.env.config.codeLimit o := by
    have hfeatures : m.features = m'.features := hm.context.features
    rw [hfeatures, hm.context.env]
  dsimp only
  rw [hdeployment]
  refine .ite (.bind (alike_onWorld ?_) fun _ => .pure _) (.pure _)
  exact .bind (hW.putCode _) fun _ => .bind (hW.accountOrEmpty a) fun _ => hW.putAccount _ _

variable [Event.Cumulative E]

/-- A checkpoint around a part of the execution leads where that leads. -/
lemma leads_guarded {W' : World → World → Prop} (ofCache : CacheError → ε) (keep : α → Bool)
    (hW' : World.Simulation W') {body : MachineM ε ι α} {body' : MachineM ε κ α}
    (h : Program.Leads (Resembles E W O d) (Resembles E W' O d) body body') :
    Program.Leads (Resembles E W O d) (Resembles E W' O d) (guarded ofCache keep body)
      (guarded ofCache keep body') := by
  intro m m' hm
  have hopened : m.opened.Resembles E W O d m'.opened :=
    ⟨hm.context.checkpoint hW, hm.observer, hm.substate, hm.depth, hm.depth', hm.parked⟩
  obtain ⟨heq, hm₁⟩ := h m.opened m'.opened hopened
  rcases hr : body.run m.opened with ⟨r, m₁⟩
  rcases hr' : body'.run m'.opened with ⟨r', m₁'⟩
  rw [hr, hr'] at heq hm₁
  obtain rfl : r = r' := heq
  have habandoned := hm₁.context.abandon hW'
  obtain ⟨hcommit, hcommitted⟩ := Context.alike_commit hW' _ _ hm₁.context
  change body.run { m with context := m.context.checkpoint } = _ at hr
  change body'.run { m' with context := m'.context.checkpoint } = _ at hr'
  change (guarded ofCache keep body m).1 = (guarded ofCache keep body' m').1 ∧
    Resembles E W' O d (guarded ofCache keep body m).2 (guarded ofCache keep body' m').2
  unfold guarded
  rw [hr, hr']
  cases r with
  | error e => exact ⟨rfl, hm₁.moved habandoned⟩
  | ok a =>
    cases hkeep : keep a with
    | false =>
      simp only [hkeep, Bool.false_eq_true, if_false]
      exact ⟨trivial, hm₁.moved habandoned⟩
    | true =>
      simp only [hkeep, if_true]
      rcases hc : Context.commit.run m₁.context with ⟨c, context⟩
      rcases hc' : Context.commit.run m₁'.context with ⟨c', context'⟩
      rw [hc, hc'] at hcommit hcommitted
      obtain rfl : c = c' := hcommit
      cases c with
      | error e => exact ⟨rfl, hm₁.moved hcommitted⟩
      | ok _ => exact ⟨rfl, hm₁.moved hcommitted⟩

/-- So it keeps the machines alike if that does. -/
lemma alike_guarded {ofCache : CacheError → ε} {keep : α → Bool} {body : MachineM ε ι α}
    {body' : MachineM ε κ α} (h : Program.Alike (Resembles E W O d) body body') :
    Program.Alike (Resembles E W O d) (guarded ofCache keep body) (guarded ofCache keep body') :=
  leads_guarded hW ofCache keep hW h

omit hW

/-! ## Messages -/

variable {i : Inspector ι} {i' : Inspector κ} (hi : i.Resembles E W O i')
  {run : Message → MachineM StateError ι FrameResult}
  {run' : Message → MachineM StateError κ FrameResult} [Ledger]

include hW hi

section

variable {message : Message} (hdepth : message.depth ≤ callDepthLimit)
  (hrun : ∀ child : Message, child.depth = message.depth + 1 →
    Program.Alike (Resembles E W O message.depth) (run child) (run' child))

include hdepth hrun

lemma alike_runCalled (target : Address) :
    Program.Alike (Resembles E W O message.depth) (runCalled i run message target)
      (runCalled i' run' message target) := by
  refine .get_bind fun m m' hm => ?_
  have hfeatures : m.features = m'.features := hm.context.features
  dsimp only
  rw [hfeatures]
  cases Precompile.at? m'.features message.codeAddress with
  | some p => exact alike_runPrecompile p message
  | none =>
    exact .bind (alike_calledCode hW message) fun code => .ite (.pure _)
      (.bind (alike_runFrame hi hrun hW hdepth) fun _ => .pure _)

lemma alike_callBody (target : Address) :
    Program.Alike (Resembles E W O message.depth) (callBody i run message target)
      (callBody i' run' message target) :=
  .ite (.bind (alike_transfer hW _ _ _) fun _ => alike_runCalled hW hi hdepth hrun target)
    (alike_runCalled hW hi hdepth hrun target)

lemma alike_construct (a : Address) :
    Program.Alike (Resembles E W O message.depth) (construct i run message a)
      (construct i' run' message a) := by
  refine .bind (alike_isTaken hW a) fun taken => .ite (.bind (alike_report _) fun _ => .pure _) ?_
  refine .bind (alike_prepareAccount hW message a) fun _ => .get_bind fun m m' hm => ?_
  have hfeatures : m.features = m'.features := hm.context.features
  rw [hfeatures]
  exact .bind (alike_runFrame hi hrun hW hdepth) fun _ => .ite (alike_deploy hW a _) (.pure _)

end

section

variable {message : Message} (hrun : message.depth ≤ callDepthLimit →
  ∀ child : Message, child.depth = message.depth + 1 →
    Program.Alike (Resembles E W O message.depth) (run child) (run' child))

include hrun

lemma alike_callFrame (target : Address) :
    Program.Alike (Resembles E W O message.depth) (callFrame i run message target)
      (callFrame i' run' message target) := by
  unfold callFrame
  split
  · exact .pure _
  · rename_i hdepth
    have hle : message.depth ≤ callDepthLimit := Nat.le_of_not_lt hdepth
    exact .bind (alike_lacksFunds hW message) fun _ =>
      .ite (.pure _) (alike_guarded hW (alike_callBody hW hi hle (hrun hle) target))

lemma alike_createFrame :
    Program.Alike (Resembles E W O message.depth) (createFrame i run message)
      (createFrame i' run' message) := by
  unfold createFrame
  split
  · exact .pure _
  · rename_i hdepth
    have hle : message.depth ≤ callDepthLimit := Nat.le_of_not_lt hdepth
    exact .bind (alike_onWorld (hW.accountOrEmpty _)) fun creator =>
      .ite (.pure _) <| .ite (.pure _) <| .bind (alike_onWorld (hW.putAccount _ _)) fun _ =>
        .bind (alike_onJournal _) fun _ =>
          alike_guarded hW (alike_construct hW hi hle (hrun hle) _)

lemma alike_frame :
    Program.Alike (Resembles E W O message.depth) (frame i run message)
      (frame i' run' message) := by
  unfold frame
  cases message.to? with
  | none => exact alike_createFrame hW hi hrun
  | some target => exact alike_callFrame hW hi hrun target

/-- A message runs alike on both machines, if the messages of its frame do. -/
theorem executeWith_alike :
    Program.Alike (Resembles E W O d) (executeWith i run message)
      (executeWith i' run' message) := by
  intro m m' hm
  have hentered : (m.entered message).Resembles E W O message.depth (m'.entered message) :=
    ⟨hm.context.report _, hm.observer, rfl, rfl, rfl, hm.parked⟩
  obtain ⟨heq, hm₁⟩ := alike_frame hW hi hrun _ _ hentered
  rw [executeWith_run, executeWith_run]
  rcases hr : (frame i run message).run (m.entered message) with ⟨r, m₁⟩
  rcases hr' : (frame i' run' message).run (m'.entered message) with ⟨r', m₁'⟩
  rw [hr, hr'] at heq hm₁
  obtain rfl : r = r' := heq
  cases r with
  | error e => exact ⟨rfl, hm₁.context, hm₁.observer, hm.substate, hm.depth, hm.depth', hm₁.parked⟩
  | ok result =>
    dsimp only
    rw [hm₁.substate]
    exact ⟨rfl, hm₁.context.report _, hm₁.observer, hm.substate, hm.depth, hm.depth', hm₁.parked⟩

end

lemma executeWithin_alike (levels : Nat) (message : Message) :
    Program.Alike (Resembles E W O d) (executeWithin i levels message)
      (executeWithin i' levels message) := by
  induction levels generalizing d message with
  | zero => exact executeWith_alike hW hi fun _ _ _ => .pure _
  | succ levels ih => exact executeWith_alike hW hi fun _ child _ => ih child

/-- Every message runs alike on both machines. -/
theorem execute_alike (message : Message) :
    Program.Alike (Resembles E W O d) (execute i message) (execute i' message) :=
  executeWithin_alike hW hi _ message

end

end Machine

end Evm
