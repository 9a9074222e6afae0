import Evm.Host.Sandbox
import Evm.Proofs.Execution.Termination
import Evm.Proofs.Machine.Gas
import Evm.Proofs.Machine.Simulation

/-!
# Termination of messages

No message gives back more gas than it got, so the frames of the machine end
(`Host.terminating`). No frame is nested deeper than the limit, which an inspector that notes the
depths sees without being seen (`execute_depths`); so running a message with the levels that are
left below it is running it with no bound on the levels (`execute_eq`).
-/

namespace Evm

/-! ## The sandbox -/

namespace Sandbox

lemma host_silent : host.Silent := ⟨fun _ _ => rfl, fun _ _ => rfl⟩

lemma host_frugal : host.Frugal := ⟨fun _ _ => le_rfl, fun _ _ => le_rfl⟩

end Sandbox

/-! ## The depth of frames -/

namespace Inspector

/-- The inspector that notes how deep the frames are nested that it sees start. -/
def depths : Inspector (List Nat) where
  start f := do
    modify fun (c, noted) => (c, f.depth :: noted)
    return f

/-- The inspector has seen no frame nested too deeply. -/
def DepthsWithin (_ : Unit) (noted : List Nat) : Prop := ∀ depth ∈ noted, depth ≤ callDepthLimit

lemma alike_depths {W : World → World → Prop} : Alike W DepthsWithin .silent depths where
  start f hf := by
    rintro ⟨c, u⟩ ⟨c', noted⟩ ⟨hc, hnoted⟩
    refine ⟨rfl, hc, fun depth hmem => ?_⟩
    rcases List.mem_cons.1 hmem with rfl | hmem
    · exact hf
    · exact hnoted depth hmem
  beforeStep _ := .pure _
  afterStep _ := .pure _
  log _ := .pure _
  call _ := .pure _
  callEnd _ _ := .pure _
  create _ := .pure _
  createEnd _ _ := .pure _
  selfDestruct _ _ _ := .pure _

end Inspector

namespace Machine

variable {ι κ : Type}

/-- The machine with another observer. -/
def observedBy (m : Machine ι) (observer : κ) : Machine κ := { m with observer }

section

variable {E : List Event → List Event → Prop} {O : ι → κ → Prop} {d : Nat} {m : Machine ι}
  {m' : Machine κ}

/-- Over the same world the machines differ in their observers and in what was reported only. -/
lemma Resembles.eq (h : m.Resembles E Eq O d m') :
    m = { m'.observedBy m.observer with
      context := { m'.context with events := m.context.events } } := by
  obtain ⟨⟨henv, hworld, hjournal, -⟩, -, hsubstate, hdepth, hdepth', hparked⟩ := h
  obtain ⟨⟨env, world, journal, events⟩, observer, substate, depth, parked?⟩ := m
  obtain ⟨⟨env', world', journal', events'⟩, observer', substate', depth', parked?'⟩ := m'
  cases henv
  cases hworld
  cases hjournal
  cases hsubstate
  cases hdepth
  cases hdepth'
  cases hparked
  rfl

lemma Resembles.eq_observedBy (h : m.Alike Eq O d m') : m'.observedBy m.observer = m := by
  have heq := h.eq
  rw [h.context.events] at heq
  exact heq.symm

end

variable [Ledger]

/-- Noting the depths of the frames changes nothing, and no frame is nested too deeply. -/
lemma execute_depths (message : Message) (m : Machine Unit) :
    ((execute .depths message (m.observedBy [])).1,
        (execute .depths message (m.observedBy [])).2.observedBy ()) = execute .silent message m ∧
      ∀ depth ∈ (execute .depths message (m.observedBy [])).2.observer, depth ≤ callDepthLimit := by
  have hm : m.Alike Eq Inspector.DepthsWithin m.depth (m.observedBy []) :=
    ⟨⟨rfl, rfl, rfl, rfl⟩, fun _ hmem => absurd hmem List.not_mem_nil, rfl, rfl, rfl, rfl⟩
  obtain ⟨hresult, hm'⟩ := execute_alike World.simulation_eq Inspector.alike_depths message _ _ hm
  exact ⟨Prod.ext hresult.symm hm'.eq_observedBy, hm'.observer⟩

/-- A message runs its own messages like any other. -/
lemma execute_eq (message : Message) :
    execute .silent message = executeWith .silent (execute .silent) message := by
  have halike (m : Machine Unit) : Program.Alike (Alike Eq Eq m.depth) (execute .silent message)
      (executeWith .silent (execute .silent) message) := by
    unfold execute
    rcases Nat.lt_or_ge callDepthLimit message.depth with hdeep | hdepth
    · rw [show callDepthLimit + 1 - message.depth = 0 by omega]
      exact executeWith_alike World.simulation_eq Inspector.alike_silent fun hle => by omega
    · obtain ⟨levels, hlevels⟩ : ∃ levels, callDepthLimit + 1 - message.depth = levels + 1 :=
        ⟨callDepthLimit - message.depth, by omega⟩
      rw [hlevels]
      refine executeWith_alike World.simulation_eq Inspector.alike_silent fun _ child hchild => ?_
      rw [show callDepthLimit + 1 - child.depth = levels by omega]
      exact executeWithin_alike World.simulation_eq Inspector.alike_silent levels child
  funext m
  have hm : m.Alike Eq Eq m.depth m := ⟨⟨rfl, rfl, rfl, rfl⟩, rfl, rfl, rfl, rfl, rfl⟩
  obtain ⟨hresult, hm'⟩ := halike m m m hm
  exact Prod.ext hresult hm'.eq_observedBy.symm

/-- The run of every frame ends, in the sandbox as on the machine, and so does that of every
message: steps take gas, what is handed down is less than the frame had, no frame is nested deeper
than the limit, and no bound on the levels of messages is ever met. -/
theorem execute_terminates :
    Sandbox.host.Terminating ∧ (host .silent (execute .silent)).Terminating ∧
      (∀ message : Message,
        execute .silent message = executeWith .silent (execute .silent) message) ∧
      ∀ (message : Message) (m : Machine Unit),
        ((execute .depths message (m.observedBy [])).1,
            (execute .depths message (m.observedBy [])).2.observedBy ()) =
          execute .silent message m ∧
        ∀ depth ∈ (execute .depths message (m.observedBy [])).2.observer,
          depth ≤ callDepthLimit :=
  ⟨Host.terminating Sandbox.host_silent Sandbox.host_frugal,
    Host.terminating (host_silent _) (host_frugal execute_within), execute_eq, execute_depths⟩

end Machine

end Evm
