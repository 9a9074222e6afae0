import Evm.Proofs.Execution.Handover
import Evm.Proofs.Machine.Termination

/-!
# Gas that comes back from frames

What a frame gets back of the gas that it hands down is what the frame below it reports to have left
(`Machine.step_handsBack`). A frame that halts reports nothing left, one that never ran reports all,
and none reports more than it got. There is one exception: the creation of an account that cannot
raise its nonce halts, but reports all its gas, none of which comes back
(`Machine.not_handsBack_nonceOverflow`).
-/

namespace Evm

/-- Nothing is left of the gas, and there is neither a refund nor output. -/
structure Outcome.Spent (o : Outcome) : Prop where
  remaining : o.gas.remaining = 0
  refunded : o.gas.refunded = 0
  output : o.output = #[]

/-- A halt uses up everything, unless it is that of a creator without nonces left. -/
def Outcome.HaltsSpent (o : Outcome) : Prop :=
  o.status.isError = true → o.status ≠ .nonceOverflow → o.Spent

lemma Frame.haltsSpent_outcome (f : Frame) : f.outcome.HaltsSpent := by
  unfold outcome
  split
  · exact fun _ _ => ⟨rfl, rfl, rfl⟩
  · rename_i hok
    exact fun herror => absurd herror hok

lemma Outcome.haltsSpent_halt (status : Status) (gasLimit : Nat) :
    (Outcome.halt status gasLimit).HaltsSpent := fun _ _ => ⟨rfl, rfl, rfl⟩

/-- A message is not run because frames are nested too deeply, or because its caller lacks the value
that would move. -/
def Message.Refused {ι : Type} (message : Message) (m : Machine ι) : Prop :=
  callDepthLimit < message.depth ∨
    message.isDelegate = false ∧ ∃ record,
      World.answer (World.accountOrEmpty message.caller) m.context.world = .ok record ∧
        record.balance < message.value

namespace Machine

variable {ι : Type}

/-! ## Frames that halt -/

/-- If the frame of the message halts, it has used up everything. -/
abbrev HaltsSpent (r : FrameResult) : Prop := r.outcome.HaltsSpent

lemma haltsSpent_precompileOutcome (gasLimit : Nat)
    (result : Except Precompile.Error Precompile.Output) :
    (precompileOutcome gasLimit result).HaltsSpent := by
  unfold precompileOutcome
  split
  · exact Outcome.haltsSpent_halt _ _
  · split
    · intro herror
      cases herror
    · exact Outcome.haltsSpent_halt _ _

lemma haltsSpent_deployment (features : Features) (codeLimit : Nat) (o : Outcome) :
    (deployment features codeLimit o).HaltsSpent := by
  have hfail (status : Status) : (failWith status o).HaltsSpent := fun _ _ => ⟨rfl, rfl, rfl⟩
  unfold deployment
  split
  · exact hfail _
  · split
    · exact hfail _
    · split
      · intro herror
        cases herror
      · split
        · exact hfail _
        · intro herror
          cases herror

section

variable [Ledger] {run : Message → MachineM StateError Unit FrameResult}

lemma gives_haltsSpent_runFrame (f : Frame) :
    Gives Outcome.HaltsSpent (runFrame .silent run f) := by
  intro m m' o h
  rw [runFrame_run] at h
  rcases hy : (host .silent run).run f m with ⟨f', m₁⟩
  rw [hy] at h
  dsimp only at h
  split at h <;> cases h
  exact f'.haltsSpent_outcome

lemma gives_haltsSpent_runCalled (message : Message) (target : Address) :
    Gives HaltsSpent (runCalled .silent run message target) := by
  refine .bind _ fun m => ?_
  dsimp only
  split
  · refine .bind _ fun _ => ?_
    dsimp only
    split
    · exact .bind _ fun _ => .pure (haltsSpent_precompileOutcome _ _)
    · exact .pure (haltsSpent_precompileOutcome _ _)
  · refine .bind _ fun code => .ite (.pure fun herror => ?_) ?_
    · cases herror
    · exact (gives_haltsSpent_runFrame _).after fun o ho => .pure ho

lemma gives_haltsSpent_callFrame (message : Message) (target : Address) :
    Gives HaltsSpent (callFrame .silent run message target) := by
  refine .ite (.pure fun herror => ?_) <| .bind _ fun _ => .ite (.pure fun herror => ?_) ?_
  · cases herror
  · cases herror
  · exact gives_guarded <| .ite (.bind _ fun _ => gives_haltsSpent_runCalled _ _)
      (gives_haltsSpent_runCalled _ _)

lemma gives_haltsSpent_construct (message : Message) (a : Address) :
    Gives HaltsSpent (construct .silent run message a) := by
  refine .bind _ fun _ => .ite (.bind _ fun _ => .pure (Outcome.haltsSpent_halt _ _)) ?_
  refine .bind _ fun _ => .bind _ fun _ => (gives_haltsSpent_runFrame _).after fun o ho => ?_
  refine .ite (.bind _ fun m => ?_) (.pure ho)
  have hdeployed := haltsSpent_deployment m.features m.context.env.config.codeLimit o
  exact .ite (.bind _ fun _ => .pure hdeployed) (.pure hdeployed)

lemma gives_haltsSpent_createFrame (message : Message) :
    Gives HaltsSpent (createFrame .silent run message) := by
  refine .ite (.pure fun herror => ?_) <| .bind _ fun _ => .ite (.pure fun herror => ?_) <|
    .ite (.pure fun _ hnonce => absurd rfl hnonce) ?_
  · cases herror
  · cases herror
  · exact .bind _ fun _ => .bind _ fun _ => gives_guarded (gives_haltsSpent_construct _ _)

lemma gives_haltsSpent_executeWith (message : Message) :
    Gives HaltsSpent (executeWith .silent run message) := by
  have hframe : Gives HaltsSpent (frame .silent run message) := by
    unfold frame
    split
    · exact gives_haltsSpent_callFrame _ _
    · exact gives_haltsSpent_createFrame _
  intro m m' r h
  rw [executeWith_run] at h
  split at h <;> rename_i hrun <;> cases h
  rename_i result m₁
  have hspent := hframe _ _ _ hrun
  unfold HaltsSpent FrameResult.withSubstate
  split <;> exact hspent

/-! ## Messages that are refused -/

/-- The frame of a message that is refused is idle. -/
lemma frame_refused {message : Message} {m : Machine Unit} (h : message.Refused m) :
    ∃ status m', (frame .silent run message).run (m.entered message) =
      (.ok { outcome := .idle status message.gasLimit }, m') := by
  unfold frame callFrame createFrame
  by_cases hdeep : callDepthLimit < message.depth
  · simp only [if_pos hdeep]
    cases message.to? with
    | none => exact ⟨.callTooDeep, _, rfl⟩
    | some target => exact ⟨.callTooDeep, _, rfl⟩
  · obtain ⟨hmoves, record, hread, hfunds⟩ := h.resolve_left hdeep
    obtain ⟨w', hrun⟩ : ∃ w', (World.accountOrEmpty message.caller).run m.context.world =
        (.ok record, w') := ⟨_, Prod.ext hread rfl⟩
    have hworld := onWorld_run (m := m.entered message) hrun
    let m' : Machine Unit := { m.entered message with
      context := { (m.entered message).context with world := w' } }
    simp only [if_neg hdeep]
    refine ⟨.outOfFunds, m', ?_⟩
    -- A creation looks at the balance itself, a call only if value moves.
    cases message.to? with
    | none =>
      dsimp only
      rw [Program.run_bind_ok hworld, if_pos hfunds]
      rfl
    | some target =>
      have hvalue : message.value ≠ 0 := by
        intro hzero
        rw [hzero] at hfunds
        exact BitVec.not_lt_zero hfunds
      have hlacks : (lacksFunds message).run (m.entered message) = (.ok true, m') := by
        unfold lacksFunds Message.movesValue
        rw [hmoves, bne_iff_ne.2 hvalue]
        simp only [Bool.not_false, Bool.and_self, if_true]
        rw [Program.run_bind_ok hworld, decide_eq_true hfunds]
        rfl
      dsimp only
      rw [Program.run_bind_ok hlacks, if_pos rfl]
      rfl

/-- A message that is refused keeps its gas. -/
lemma executeWith_refused {message : Message} {m : Machine Unit} (h : message.Refused m) :
    ∃ result m', (executeWith .silent run message).run m = (.ok result, m') ∧
      result.outcome.gas.remaining = message.gasLimit := by
  obtain ⟨status, m', hrun⟩ := frame_refused h
  rw [executeWith_run, hrun]
  refine ⟨_, _, rfl, ?_⟩
  unfold FrameResult.withSubstate
  split <;> rfl

end

/-! ## What comes back -/

/-- The message of an errand. -/
def messageOf (m : Machine ι) : Errand → Message
  | .call request => m.handDown (.ofCall request (m.depth + 1))
  | .create request => m.handDown (.ofCreate request (m.depth + 1))

/-- On the machine an errand is the run of its message. -/
lemma outcomeOf_host [Ledger] {run : Message → MachineM StateError Unit FrameResult}
    (m : Machine Unit) (errand : Errand) :
    (host .silent run).outcomeOf m errand = (runChild run (m.messageOf errand) m).1.outcome := by
  cases errand <;> rfl

/-- What becomes of the gas of a message, given how its frame ended and the meters of the frame
around it, right after the gas was handed down and once the message is settled. -/
structure HandsBack (message : Message) (m : Machine Unit) (o : Outcome) (before after : Gas.Meter) :
    Prop where
  refused : message.Refused m → o.gas.remaining = message.gasLimit
  halted : o.status.isError = true → o.Spent
  within : o.gas.remaining ≤ message.gasLimit
  remaining : after.remaining = before.remaining + o.gas.remaining
  refunded : after.refunded = before.refunded + if o.isOk then o.gas.refunded else 0

/-- A frame gets back exactly the gas that the frame below it has left, and its refund if that
succeeded: nothing of a halt, and everything of a message that was refused. -/
theorem step_handsBack [Ledger] {f f₁ : Frame} {m m₁ m' : Machine Unit} {errand : Errand}
    {result : FrameResult} (hf : f.isRunning = true)
    (herrand : (Exec.errand (host .silent (execute .silent))).run (f, m) =
      (.ok (some errand), (f₁, m₁)))
    (hrun : (execute .silent (m₁.messageOf errand)).run m₁ = (.ok result, m'))
    (hfatal : result.outcome.status ≠ .fatal) (hnonce : result.outcome.status ≠ .nonceOverflow) :
    HandsBack (m₁.messageOf errand) m₁ result.outcome f₁.gas
      ((host .silent (execute .silent)).step f m).1.gas := by
  have houtcome : (host .silent (execute .silent)).outcomeOf m₁ errand = result.outcome := by
    rw [outcomeOf_host]
    unfold runChild
    rw [hrun]
  have hspent : result.outcome.status.isError = true → result.outcome.Spent := by
    intro herror
    rw [execute_eq] at hrun
    exact gives_haltsSpent_executeWith _ _ _ _ hrun herror hnonce
  have hgas := Host.step_gas (host_silent _) hf herrand (houtcome ▸ hfatal)
  rw [houtcome] at hgas
  rw [hgas]
  refine ⟨fun hrefused => ?_, hspent, execute_within _ _ _ _ hrun,
    Gas.Meter.remaining_settled fun herror => (hspent herror).remaining,
    Gas.Meter.refunded_settled _ _⟩
  rw [execute_eq] at hrun
  obtain ⟨result', m'', hrun', hremaining⟩ := executeWith_refused hrefused
  rw [hrun] at hrun'
  cases hrun'
  exact hremaining

/-- A machine on which the account 0x100 has code that halts. -/
def trapped : Machine Unit :=
  let world := World.ofStore {} .ordered
  start (.ofWorld {} { world with
    accounts := world.accounts.put 0x100 { codeHash := 7 }
    code := world.code.put 7 (Code.ofHashed #[0xfe] 7) }) ()

/-- A frame about to call the account 0x100 with 1000 gas. -/
def trappedCaller : Frame :=
  { Frame.start { code := Code.ofHashed #[0xf1] 0, address := 1, features := trapped.features } 5000 with
    stack := ⟨[1000, 0x100, 0, 0, 0, 0, 0], 7, rfl, by decide⟩ }

/-- The errand of the next instruction, the frame and the machine right after its gas was handed
down, and the result of its message. -/
def errandResult? (f : Frame) (m : Machine Unit) :
    Option (Errand × Frame × Machine Unit × FrameResult) :=
  match (Exec.errand (host .silent (execute .silent))).run (f, m) with
  | (.ok (some errand), (f₁, m₁)) =>
    match (execute .silent (m₁.messageOf errand)).run m₁ with
    | (.ok result, _) => some (errand, f₁, m₁, result)
    | _ => none
  | _ => none

lemma errandResult?_eq_some {f f₁ : Frame} {m m₁ : Machine Unit} {errand : Errand}
    {result : FrameResult} (h : errandResult? f m = some (errand, f₁, m₁, result)) :
    (Exec.errand (host .silent (execute .silent))).run (f, m) = (.ok (some errand), (f₁, m₁)) ∧
      ∃ m', (execute .silent (m₁.messageOf errand)).run m₁ = (.ok result, m') := by
  unfold errandResult? at h
  split at h
  · rename_i herrand
    split at h
    · rename_i hrun
      cases h
      exact ⟨herrand, _, hrun⟩
    · cases h
  · cases h

/-- Nothing comes back of the 1000 gas that a call hands down to code that halts. -/
theorem step_handsBack_trapped :
    ∃ errand f₁ m₁ result m', trappedCaller.isRunning = true ∧
      (Exec.errand (host .silent (execute .silent))).run (trappedCaller, trapped) =
        (.ok (some errand), (f₁, m₁)) ∧
      (execute .silent (m₁.messageOf errand)).run m₁ = (.ok result, m') ∧
      result.outcome.status = .invalidOpcode ∧ (m₁.messageOf errand).gasLimit = 1000 ∧
      HandsBack (m₁.messageOf errand) m₁ result.outcome f₁.gas
        ((host .silent (execute .silent)).step trappedCaller trapped).1.gas := by
  have h : (errandResult? trappedCaller trapped).map (fun (errand, _, m₁, result) =>
      (result.outcome.status, (m₁.messageOf errand).gasLimit)) = some (.invalidOpcode, 1000) := by
    decide +kernel
  obtain ⟨⟨errand, f₁, m₁, result⟩, hresult, hfacts⟩ := Option.map_eq_some_iff.1 h
  obtain ⟨hstatus, hlimit⟩ := Prod.mk.inj hfacts
  obtain ⟨herrand, m', hrun⟩ := errandResult?_eq_some hresult
  refine ⟨errand, f₁, m₁, result, m', rfl, herrand, hrun, hstatus, hlimit, ?_⟩
  apply step_handsBack rfl herrand hrun
  · rw [hstatus]
    decide
  · rw [hstatus]
    decide

/-- A machine on which the account 1 cannot raise its nonce. -/
def exhausted : Machine Unit :=
  let world := World.ofStore {} .ordered
  start (.ofWorld {} { world with
    accounts := world.accounts.put 1 { nonce := UInt64.ofNat Count.max } }) ()

/-- A frame of the account 1 about to create a contract. -/
def exhaustedCreator : Frame :=
  { Frame.start { code := Code.ofHashed #[0xf0] 0, address := 1, features := exhausted.features }
      50000 with
    stack := ⟨[0, 0, 0], 3, rfl, by decide⟩ }

/-- The creation of an account without nonces left halts and reports all its gas to be left, but the
creator gets nothing back. -/
theorem not_handsBack_nonceOverflow :
    ∃ errand f₁ m₁ result m', exhaustedCreator.isRunning = true ∧
      (Exec.errand (host .silent (execute .silent))).run (exhaustedCreator, exhausted) =
        (.ok (some errand), (f₁, m₁)) ∧
      (execute .silent (m₁.messageOf errand)).run m₁ = (.ok result, m') ∧
      result.outcome.status = .nonceOverflow ∧
      result.outcome.gas.remaining = (m₁.messageOf errand).gasLimit ∧
      ((host .silent (execute .silent)).step exhaustedCreator exhausted).1.gas = f₁.gas ∧
      ¬HandsBack (m₁.messageOf errand) m₁ result.outcome f₁.gas
        ((host .silent (execute .silent)).step exhaustedCreator exhausted).1.gas := by
  have h : (errandResult? exhaustedCreator exhausted).map (fun (errand, f₁, m₁, result) =>
      (result.outcome.status,
        decide (result.outcome.gas.remaining = (m₁.messageOf errand).gasLimit),
        decide (((host .silent (execute .silent)).step exhaustedCreator exhausted).1.gas = f₁.gas),
        decide (result.outcome.gas.remaining = 0))) =
      some (.nonceOverflow, true, true, false) := by
    decide +kernel
  obtain ⟨⟨errand, f₁, m₁, result⟩, hresult, hfacts⟩ := Option.map_eq_some_iff.1 h
  simp only [Prod.mk.injEq, decide_eq_true_eq, decide_eq_false_iff_not] at hfacts
  obtain ⟨hstatus, hremaining, hgas, hleft⟩ := hfacts
  obtain ⟨herrand, m', hrun⟩ := errandResult?_eq_some hresult
  refine ⟨errand, f₁, m₁, result, m', rfl, herrand, hrun, hstatus, hremaining, hgas, ?_⟩
  intro hback
  have herror : result.outcome.status.isError = true := by
    rw [hstatus]
    rfl
  exact hleft (hback.halted herror).remaining

end Machine

end Evm
