import Evm.Proofs.Machine.Runs

/-!
# Gas of frames

No frame ends with more gas than it was given: gas comes back from a call or a creation only as far
as it was handed down, and no message gives back more than its limit.
-/

namespace Evm

namespace Frame

lemma outcome_remaining_le (f : Frame) : f.outcome.gas.remaining ≤ f.gas.remaining := by
  unfold outcome
  split
  · exact Nat.zero_le _
  · exact le_rfl

end Frame

namespace Machine

variable {ι : Type}

/-- The result gives back no more gas than that. -/
def GasWithin (gasLimit : Nat) (r : FrameResult) : Prop := r.outcome.gas.remaining ≤ gasLimit

/-- Running a message gives back no more gas than its limit. -/
def RunWithin (run : Message → MachineM StateError ι FrameResult) : Prop :=
  ∀ message, Gives (GasWithin message.gasLimit) (run message)

/-! ## The machine as a host -/

lemma runChild_remaining_le {run : Message → MachineM StateError ι FrameResult}
    (hrun : RunWithin run) (message : Message) (m : Machine ι) :
    (runChild run message m).1.outcome.gas.remaining ≤ message.gasLimit := by
  unfold runChild
  split
  · rename_i result m' hr
    exact hrun message m m' result hr
  · exact Nat.zero_le _

lemma move_limit {σ : Type} {h : Host σ} {x y : Frame × σ} (hmove : h.Move x y) :
    y.1.gas.limit = x.1.gas.limit := by
  cases hmove with
  | alone h => exact h.limit
  | create _ _ _ _ hlimit => exact hlimit
  | call _ _ _ _ hlimit => exact hlimit
  | _ => rfl

lemma reaches_limit {σ : Type} {h : Host σ} {x y : Frame × σ} (hreaches : h.Reaches x y) :
    y.1.gas.limit = x.1.gas.limit := by
  induction hreaches with
  | refl => rfl
  | tail _ hmove ih => exact (move_limit hmove).trans ih

variable [Ledger] {run : Message → MachineM StateError Unit FrameResult}

lemma host_frugal (hrun : RunWithin run) : (host .silent run).Frugal where
  call request m := by
    change (call .silent run request m).1.outcome.gas.remaining ≤ _
    rw [call_silent]
    exact runChild_remaining_le hrun (m.handDown (.ofCall request (m.depth + 1))) m
  create request m := by
    change (create .silent run request m).1.outcome.gas.remaining ≤ _
    rw [create_silent]
    exact runChild_remaining_le hrun (m.handDown (.ofCreate request (m.depth + 1))) m

/-- A frame never gains gas. -/
lemma run_remaining_le (hrun : RunWithin run) (f : Frame) (m : Machine Unit) :
    ((host .silent run).run f m).1.gas.remaining ≤ f.gas.remaining :=
  (Host.run_reaches (host_silent run) f m).remaining_le (host_frugal hrun)

/-! ## Frames -/

lemma gives_runFrame (hrun : RunWithin run) (invocation : Invocation) (gasLimit : Nat) :
    Gives (fun o : Outcome => o.gas.remaining ≤ gasLimit)
      (runFrame .silent run (Frame.start invocation gasLimit)) := by
  intro m m' o h
  have hle := run_remaining_le hrun (Frame.start invocation gasLimit) m
  rw [runFrame_run] at h
  rcases hy : (host .silent run).run (Frame.start invocation gasLimit) m with ⟨f', m₁⟩
  rw [hy] at h hle
  dsimp only at h
  split at h <;> cases h
  exact (Frame.outcome_remaining_le f').trans hle

omit [Ledger] in
lemma precompileOutcome_remaining_le (gasLimit : Nat)
    (result : Except Precompile.Error Precompile.Output) :
    (precompileOutcome gasLimit result).gas.remaining ≤ gasLimit := by
  unfold precompileOutcome
  split
  · exact Nat.zero_le _
  · split
    · rename_i hpaid
      obtain ⟨-, rfl⟩ := Gas.Meter.pay?_eq_some hpaid
      exact Nat.sub_le _ _
    · exact Nat.zero_le _

omit [Ledger] in
lemma deployment_remaining_le (features : Features) (codeLimit : Nat) (o : Outcome) :
    (deployment features codeLimit o).gas.remaining ≤ o.gas.remaining := by
  unfold deployment
  split
  · exact Nat.zero_le _
  · split
    · exact Nat.zero_le _
    · split
      · rename_i hpaid
        obtain ⟨-, rfl⟩ := Gas.Meter.pay?_eq_some hpaid
        exact Nat.sub_le _ _
      · split
        · exact Nat.zero_le _
        · exact le_rfl

omit [Ledger] in
lemma gives_within (o : Outcome) {gasLimit : Nat} (h : o.gas.remaining ≤ gasLimit) :
    Gives (GasWithin gasLimit) (pure { outcome := o } : MachineM StateError ι FrameResult) :=
  .pure h

lemma gives_within_runCalled (hrun : RunWithin run) (message : Message) (target : Address) :
    Gives (GasWithin message.gasLimit) (runCalled .silent run message target) := by
  refine .bind _ fun _ => ?_
  dsimp only
  split
  · refine .bind _ fun _ => ?_
    dsimp only
    split
    · exact .bind _ fun _ => gives_within _ (precompileOutcome_remaining_le _ _)
    · exact gives_within _ (precompileOutcome_remaining_le _ _)
  · refine .bind _ fun _ => .ite (gives_within _ le_rfl) ?_
    exact (gives_runFrame hrun _ _).after fun o ho => gives_within o ho

lemma gives_within_callFrame (hrun : RunWithin run) (message : Message) (target : Address) :
    Gives (GasWithin message.gasLimit) (callFrame .silent run message target) :=
  .ite (gives_within _ le_rfl) <| .bind _ fun _ => .ite (gives_within _ le_rfl) <| gives_guarded <|
    .ite (.bind _ fun _ => gives_within_runCalled hrun _ _) (gives_within_runCalled hrun _ _)

omit [Ledger] in
lemma gives_within_deploy (a : Address) {o : Outcome} {gasLimit : Nat}
    (h : o.gas.remaining ≤ gasLimit) :
    Gives (GasWithin gasLimit) (deploy a o : MachineM StateError Unit FrameResult) :=
  .bind _ fun m =>
    have hle := (deployment_remaining_le m.features m.context.env.config.codeLimit o).trans h
    .ite (.bind _ fun _ => .pure hle) (gives_within _ hle)

lemma gives_within_construct (hrun : RunWithin run) (message : Message) (a : Address) :
    Gives (GasWithin message.gasLimit) (construct .silent run message a) :=
  .bind _ fun _ => .ite (.bind _ fun _ => gives_within _ (Nat.zero_le _)) <| .bind _ fun _ =>
    .bind _ fun _ => (gives_runFrame hrun _ _).after fun o ho =>
      .ite (gives_within_deploy a ho) (gives_within o ho)

lemma gives_within_createFrame (hrun : RunWithin run) (message : Message) :
    Gives (GasWithin message.gasLimit) (createFrame .silent run message) :=
  .ite (gives_within _ le_rfl) <| .bind _ fun _ => .ite (gives_within _ le_rfl) <|
    .ite (gives_within _ le_rfl) <| .bind _ fun _ => .bind _ fun _ =>
      gives_guarded (gives_within_construct hrun _ _)

lemma gives_within_frame (hrun : RunWithin run) (message : Message) :
    Gives (GasWithin message.gasLimit) (frame .silent run message) := by
  unfold frame
  split
  · exact gives_within_callFrame hrun _ _
  · exact gives_within_createFrame hrun _

/-! ## Messages -/

lemma executeWith_within (hrun : RunWithin run) : RunWithin (executeWith .silent run) := by
  intro message m m' r h
  rw [executeWith_run] at h
  split at h <;> rename_i hframe <;> cases h
  rename_i result m₁
  have hwithin := gives_within_frame hrun message _ _ _ hframe
  unfold GasWithin FrameResult.withSubstate at *
  split <;> exact hwithin

lemma executeWithin_within (levels : Nat) : RunWithin (executeWithin .silent levels) := by
  induction levels with
  | zero => exact executeWith_within fun _ => gives_within _ le_rfl
  | succ levels ih => exact executeWith_within ih

/-- No message gives back more gas than its limit. -/
theorem execute_within : RunWithin (execute .silent) :=
  fun message => executeWithin_within _ message

end Machine

end Evm
