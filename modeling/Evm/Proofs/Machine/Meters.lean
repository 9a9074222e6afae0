import Evm.Proofs.Machine.Watching

/-!
# Noting the gas meters of frames

An inspector that notes the gas meters of all frames, at their start and before and after every
instruction, changes nothing (`Machine.transact_meters`). No meter that it notes has more gas left
than it was given. This is proved of the moves of a frame, of frames, and by induction on the levels
of messages of whole executions.
-/

namespace Evm

/-- The inspector that notes the gas meters of the frames that it sees. -/
def Inspector.meters : Inspector (List Gas.Meter) where
  start f := do
    modify fun (c, noted) => (c, f.gas :: noted)
    return f
  beforeStep f := do
    modify fun (c, noted) => (c, f.gas :: noted)
    return f
  afterStep f := do
    modify fun (c, noted) => (c, f.gas :: noted)
    return f

/-- Noting the meters changes nothing. -/
lemma Inspector.alike_meters {W : World → World → Prop} :
    Alike W (fun _ _ => True) .silent meters where
  start _ _ := fun _ _ h => ⟨rfl, h.1, trivial⟩
  beforeStep _ := fun _ _ h => ⟨rfl, h.1, trivial⟩
  afterStep _ := fun _ _ h => ⟨rfl, h.1, trivial⟩
  log _ := .pure _
  call _ := .pure _
  callEnd _ _ := .pure _
  create _ := .pure _
  createEnd _ _ := .pure _
  selfDestruct _ _ _ := .pure _

namespace Machine

variable {ι ε α : Type}

/-- No meter that was noted has more gas left than it had at the start. -/
def Metered (m : Machine (List Gas.Meter)) : Prop :=
  ∀ meter ∈ m.observer, meter.remaining ≤ meter.limit

/-- Only notes count. -/
lemma watched_metered : Watched Metered := by
  intro m m' hm hobserver _ meter hmem
  rw [hobserver] at hmem
  exact hm meter hmem

/-- Nothing is noted of the hooks that are not about frames. -/
lemma abides_meters : Abides .meters Metered :=
  ⟨fun _ _ h => h, fun _ _ h => h, fun _ _ _ h => h, fun _ _ h => h, fun _ _ _ h => h,
    fun _ _ _ _ h => h⟩

lemma Metered.noted {m : Machine (List Gas.Meter)} (h : m.Metered) {meter : Gas.Meter}
    (hmeter : meter.remaining ≤ meter.limit) (context : Context) :
    Metered { m with context, observer := meter :: m.observer } := by
  intro noted hmem
  rcases List.mem_cons.1 hmem with rfl | hmem
  · exact hmeter
  · exact h noted hmem

/-! ## Frames whose meters are noted -/

section

variable [Ledger] {run : Message → MachineM StateError (List Gas.Meter) FrameResult}

lemma frugal_meters (hrun : RunWithin run) : (host .meters run).Frugal where
  call request m := runChild_remaining_le hrun (m.handDown (.ofCall request (m.depth + 1))) m
  create request m := runChild_remaining_le hrun (m.handDown (.ofCreate request (m.depth + 1))) m

/-- The frame has no more gas left than it had at the start, and neither has any that was noted. -/
def MeteredFrame (x : Frame × Machine (List Gas.Meter)) : Prop :=
  x.1.gas.remaining ≤ x.1.gas.limit ∧ x.2.Metered

lemma reaches_metered (hwithin : RunWithin run) (hrun : RunKeeps Metered run)
    {x y : Frame × Machine (List Gas.Meter)} (h : (host .meters run).Reaches x y)
    (hx : MeteredFrame x) : MeteredFrame y := by
  refine ⟨?_, watched_reaches watched_metered abides_meters hrun h hx.2⟩
  rw [reaches_limit h]
  exact (h.remaining_le (frugal_meters hwithin)).trans hx.1

/-- What is noted of a frame before or after an instruction is within its limit. -/
lemma step_metered (hwithin : RunWithin run) (hrun : RunKeeps Metered run) (f : Frame)
    (m : Machine (List Gas.Meter)) (h : MeteredFrame (f, m)) :
    MeteredFrame ((host .meters run).step f m) := by
  have hbefore : MeteredFrame (f, { m with observer := f.gas :: m.observer }) :=
    ⟨h.1, h.2.noted h.1 m.context⟩
  have hafter := reaches_metered hwithin hrun (Exec.perform_reaches Exec.keeps_next) hbefore
  change MeteredFrame (if f.isRunning then _ else _)
  split
  · exact ⟨hafter.1, hafter.2.noted hafter.1 _⟩
  · exact hbefore

lemma steps_metered (hwithin : RunWithin run) (hrun : RunKeeps Metered run) (fuel : Nat) (f : Frame)
    (m : Machine (List Gas.Meter)) (h : MeteredFrame (f, m)) :
    MeteredFrame ((host .meters run).steps fuel f m) := by
  induction fuel generalizing f m with
  | zero => exact h
  | succ fuel ih =>
    unfold Host.steps
    split
    · exact ih _ _ (step_metered hwithin hrun f m h)
    · exact h

lemma metered_runFrame (hwithin : RunWithin run) (hrun : RunKeeps Metered run) (invocation : Invocation)
    (gasLimit : Nat) :
    Keeps Metered (runFrame .meters run (Frame.start invocation gasLimit)) := by
  intro m hm
  have hstart : MeteredFrame (Frame.start invocation gasLimit,
      { m with observer := (Frame.start invocation gasLimit).gas :: m.observer }) :=
    ⟨le_rfl, hm.noted le_rfl m.context⟩
  have hends := steps_metered hwithin hrun (gasLimit + 1) _ _ hstart
  rw [runFrame_eq]
  exact watched_metered.unparked hends.2

/-! ## Messages -/

/-- Messages give back the same whether or not meters are noted. -/
lemma executeWithin_meters_within (levels : Nat) : RunWithin (executeWithin .meters levels) := by
  intro message m m' result hrun
  have hm : (m.observedBy ()).Alike Eq (fun _ _ => True) m.depth m :=
    ⟨⟨rfl, rfl, rfl, rfl⟩, trivial, rfl, rfl, rfl, rfl⟩
  obtain ⟨hresult, -⟩ := executeWithin_alike World.simulation_eq Inspector.alike_meters levels
    message _ _ hm
  rw [hrun] at hresult
  exact executeWithin_within levels message _ _ result (Prod.ext hresult rfl)

lemma executeWithin_metered (levels : Nat) : RunKeeps Metered (executeWithin .meters levels) := by
  induction levels with
  | zero =>
    exact watched_executeWith watched_metered
      (metered_runFrame (fun _ => gives_within _ le_rfl) fun _ => .pure _)
  | succ levels ih =>
    exact watched_executeWith watched_metered (metered_runFrame (executeWithin_meters_within levels) ih)

end

variable [Ledger] {m m' : Machine Unit} {tx : Transaction} {receipt : Receipt}

/-- A transaction goes through in the same way if the meters of its frames are noted. -/
lemma transact_meters (hrun : (transact .silent tx).run m = (.ok receipt, m')) :
    ∃ meters, (transact .meters tx).run (m.observedBy []) = (.ok receipt, m'.observedBy meters) ∧
      ∀ meter ∈ meters, meter.remaining ≤ meter.limit := by
  obtain ⟨meters, hmeters, -⟩ :=
    run_observedBy (leads_transact Inspector.alike_meters tx) hrun [] trivial
  have hmetered := watched_transact watched_metered (fun _ => executeWithin_metered _ _) tx
    (m.observedBy []) fun _ hmem => absurd hmem List.not_mem_nil
  rw [hmeters] at hmetered
  exact ⟨meters, hmeters, hmetered⟩

end Machine

end Evm
