import Evm.Proofs.Machine.Tracing

/-!
# Inspectors that look on

An inspector that leaves frames, requests and responses as they are, answers no call or creation in
place of the machine, and does nothing to the context but report events of its own looks on only
(`Inspector.Onlooker`); the tracer is one. Such an inspector acts like the one that does nothing
(`Inspector.Onlooker.resembles_silent`), as far as can be seen on contexts that need only have the
same reports but for its own. So what it watches comes to the same as if nobody watched
(`Machine.unaffected_by_onlookers`).
-/

namespace Evm

variable {ι : Type} {own : Event → Bool}

/-! ## Reports -/

/-- The same was reported but for events that are an inspector's own. -/
def Event.SameBut (own : Event → Bool) (events events' : List Event) : Prop :=
  events.filter (!own ·) = events'.filter (!own ·)

instance : Event.Cumulative (Event.SameBut own) where
  report e h := by
    unfold Event.SameBut
    rw [List.filter_cons, List.filter_cons, h]

/-- Reports of an inspector's own make no difference. -/
lemma Event.SameBut.append {events events' reports : List Event}
    (h : Event.SameBut own events events') (hown : ∀ e ∈ reports, own e) :
    Event.SameBut own (reports ++ events) events' := by
  have hnone : reports.filter (!own ·) = [] :=
    List.filter_eq_nil_iff.2 fun e he => by simp [hown e he]
  unfold Event.SameBut
  rw [List.filter_append, hnone]
  exact h

/-! ## Inspectors -/

/-- The hook gives this value. It may change the state of the inspector, but all it does to the
context is to report events of the inspector's own. -/
def Hook.Gives {α : Type} (own : Event → Bool) (hook : Hook ι α) (a : α) : Prop :=
  ∀ c o, ∃ reports o', (∀ e ∈ reports, own e) ∧
    hook.run (c, o) = (a, { c with events := reports ++ c.events }, o')

namespace Hook.Gives

variable {α β : Type} {a : α} {hook : Hook ι α}

lemma pure (a : α) : Hook.Gives own (Pure.pure a : Hook ι α) a :=
  fun _ o => ⟨[], o, List.forall_mem_nil _, rfl⟩

lemma report {e : Event} (h : own e) : Hook.Gives own (Hook.report e : Hook ι Unit) () :=
  fun _ o => ⟨[e], o, List.forall_mem_singleton.2 h, rfl⟩

lemma bind {b : β} {next : α → Hook ι β} (h : Hook.Gives own hook a)
    (hnext : Hook.Gives own (next a) b) : Hook.Gives own (hook >>= next) b := by
  intro c o
  obtain ⟨reports, o₁, hown, hrun⟩ := h c o
  obtain ⟨reports', o₂, hown', hrun'⟩ := hnext { c with events := reports ++ c.events } o₁
  refine ⟨reports' ++ reports, o₂, List.forall_mem_append.2 ⟨hown', hown⟩, ?_⟩
  rw [StateT.run_bind, hrun]
  change (next a).run _ = _
  rw [hrun', List.append_assoc]

/-- The hook acts like one that does nothing. -/
lemma alike (h : Hook.Gives own hook a) {W : World → World → Prop} {κ : Type} :
    Evm.Alike (Hook.Seen (Event.SameBut own) W fun _ _ => True) hook
      (Pure.pure a : Hook κ α) := by
  rintro ⟨c, o⟩ ⟨c', o'⟩ ⟨hc, -⟩
  obtain ⟨reports, o₁, hown, hrun⟩ := h c o
  change hook (c, o) = _ at hrun
  rw [hrun]
  -- Of the context only the reports have changed, by some of the inspector's own.
  exact ⟨rfl, ⟨hc.env, hc.world, hc.journal, hc.events.append hown⟩, trivial⟩

end Hook.Gives

/-- The inspector changes nothing but its own state, and reports events of its own only. -/
structure Inspector.Onlooker (own : Event → Bool) (i : Inspector ι) : Prop where
  start : ∀ f, Hook.Gives own (i.start f) f
  beforeStep : ∀ f, Hook.Gives own (i.beforeStep f) f
  afterStep : ∀ f, Hook.Gives own (i.afterStep f) f
  log : ∀ entry, Hook.Gives own (i.log entry) ()
  call : ∀ request, Hook.Gives own (i.call request) (request, none)
  callEnd : ∀ request response, Hook.Gives own (i.callEnd request response) response
  create : ∀ request, Hook.Gives own (i.create request) (request, none)
  createEnd : ∀ request response, Hook.Gives own (i.createEnd request response) response
  selfDestruct : ∀ a beneficiary value, Hook.Gives own (i.selfDestruct a beneficiary value) ()

/-- An inspector that looks on acts like the one that does nothing. -/
lemma Inspector.Onlooker.resembles_silent {i : Inspector ι} (h : i.Onlooker own)
    {W : World → World → Prop} :
    i.Resembles (Event.SameBut own) W (fun _ _ => True) .silent where
  start f _ := (h.start f).alike
  beforeStep f := (h.beforeStep f).alike
  afterStep f := (h.afterStep f).alike
  log entry := (h.log entry).alike
  call request := (h.call request).alike
  callEnd request response := (h.callEnd request response).alike
  create request := (h.create request).alike
  createEnd request response := (h.createEnd request response).alike
  selfDestruct a beneficiary value := (h.selfDestruct a beneficiary value).alike

namespace Tracer

/-- The event is one that the tracer reports. -/
def reports (e : Event) : Bool := e.channel = .tracer

lemma onlooker_inspector : inspector.Onlooker reports where
  start f := .pure f
  beforeStep _ := fun _ _ => ⟨[], _, List.forall_mem_nil _, rfl⟩
  afterStep f := fun _ t => ⟨[.step (t.traced f)], _, List.forall_mem_singleton.2 rfl, rfl⟩
  log _ := .report rfl
  call _ := .bind (.report rfl) (.pure _)
  callEnd _ _ := .bind (.report rfl) (.pure _)
  create _ := .bind (.report rfl) (.pure _)
  createEnd _ _ := .bind (.report rfl) (.pure _)
  selfDestruct _ _ _ := .report rfl

end Tracer

/-! ## Executions -/

namespace Machine

variable {ε α : Type}

/-- The machine without its inspector and what that reported. -/
def unwatched (own : Event → Bool) (m : Machine ι) : Machine Unit :=
  { m with
    context := { m.context with events := m.context.events.filter (!own ·) }
    observer := () }

lemma Resembles.unwatched_eq {O : ι → Unit → Prop} {d : Nat} {m : Machine ι} {m' : Machine Unit}
    (h : m.Resembles (Event.SameBut own) Eq O d m') : m.unwatched own = m'.unwatched own := by
  have hevents : m.context.events.filter (!own ·) = m'.context.events.filter (!own ·) :=
    h.context.events
  unfold unwatched
  rw [hevents, h.eq]
  rfl

/-- It comes to the same whether an inspector watches or the one that does nothing: the same is
given, or it fails alike, and everything is left the same but for what the inspector reported. -/
def Unaffected (own : Event → Bool) (p : MachineM ε ι α) (p' : MachineM ε Unit α) : Prop :=
  ∀ m : Machine ι, (p.run m).1 = (p'.run (m.observedBy ())).1 ∧
    (p.run m).2.unwatched own = (p'.run (m.observedBy ())).2.unwatched own

lemma unaffected {p : MachineM ε ι α} {p' : MachineM ε Unit α} {d' : Nat → Nat}
    (h : ∀ d, Program.Leads (Resembles (Event.SameBut own) Eq (fun _ _ => True) d)
      (Resembles (Event.SameBut own) Eq (fun _ _ => True) (d' d)) p p') : Unaffected own p p' := by
  intro m
  obtain ⟨heq, hends⟩ := h m.depth m (m.observedBy ())
    ⟨⟨rfl, rfl, rfl, rfl⟩, trivial, rfl, rfl, rfl, rfl⟩
  exact ⟨heq, hends.unwatched_eq⟩

/-- The tracer is an inspector that looks on only, and under such an inspector every transaction,
message and piece of code comes to the same as under the one that does nothing. -/
theorem unaffected_by_onlookers [Ledger] :
    Tracer.inspector.Onlooker Tracer.reports ∧
      ∀ {ι : Type} {own : Event → Bool} {i : Inspector ι}, i.Onlooker own →
        (∀ tx, Unaffected own (transact i tx) (transact .silent tx)) ∧
        (∀ message, Unaffected own (runMessage i message) (runMessage .silent message)) ∧
        ∀ a code gasLimit,
          Unaffected own (runCode i a code gasLimit) (runCode .silent a code gasLimit) := by
  refine ⟨Tracer.onlooker_inspector, fun h => ⟨fun tx => ?_, fun message => ?_, ?_⟩⟩
  · exact unaffected fun _ => leads_transact h.resembles_silent tx
  · exact unaffected fun _ => alike_runMessage World.simulation_eq h.resembles_silent message
  · exact fun a code gasLimit =>
      unaffected fun _ => alike_runCode World.simulation_eq h.resembles_silent a code gasLimit

/-- The contract that calls its caller is watched. -/
theorem unaffected_by_onlookers_relay :
    Tracer.inspector.Onlooker Tracer.reports ∧
      Unaffected Tracer.reports
        (runMessage Tracer.inspector (.call 0x100 0x200 0 #[] 10000))
        (runMessage .silent (.call 0x100 0x200 0 #[] 10000)) ∧
      ((runMessage Tracer.inspector (.call 0x100 0x200 0 #[] 10000)).run
        relay).2.context.tracedSteps.length = 10 :=
  ⟨unaffected_by_onlookers.1,
    (unaffected_by_onlookers.2 Tracer.onlooker_inspector).2.1 _, by decide +kernel⟩

end Machine

end Evm
