import Evm.Proofs.Machine.Continues
import Evm.Proofs.Machine.Coupling

/-!
# Executions go on from the open checkpoints

The operations of the machine as a host, the moves of a frame on it, and by induction on the levels
of messages the execution of a message all go on within the checkpoints that are open, under the
inspector that does nothing.
-/

namespace Evm.Machine

variable {ι α : Type} {m₀ m m' : Machine ι}

/-! ## The machine as a host -/

lemma attempt_run_ok {op : WorldM α} {a : α} {world : World}
    (h : op.run m.context.world = (.ok a, world)) :
    (attempt op).run m = (some a, { m with context := { m.context with world } }) := by
  change attempt op m = _
  unfold attempt
  rw [onWorld_run h]

lemma attempt_run_some {op : WorldM α} {a : α}
    (h : (attempt op).run m = (some a, m')) :
    ∃ world, op.run m.context.world = (.ok a, world) ∧
      m' = { m with context := { m.context with world } } := by
  change attempt op m = _ at h
  unfold attempt at h
  rcases hrun : op.run m.context.world with ⟨_ | a', world⟩ <;> rw [onWorld_run hrun] at h <;> cases h
  exact ⟨world, rfl, rfl⟩

section

variable {I : Machine ι → Prop} (hI : Stable I)

include hI

lemma keeps_attempt {op : WorldM α} (h : Keeps I (onWorld op : MachineM StateError ι α)) :
    HostM.Keeps I (attempt op : HostM (Machine ι) α) := by
  intro m hm
  have hop := h m hm
  change I (attempt op m).2
  unfold attempt
  split <;> rename_i hrun <;> rw [hrun] at hop
  · exact hop
  · exact hI.parked (hI.report (e := .stateFailed _) nofun hop)

lemma keeps_access (a : Address) : HostM.Keeps I (access a : HostM (Machine ι) Bool) :=
  fun m hm => hI.journal hm (m.context.journal.notes_access a)

lemma keeps_accessSlot (s : Slot) : HostM.Keeps I (accessSlot s : HostM (Machine ι) Bool) :=
  fun m hm => hI.journal hm (m.context.journal.notes_accessSlot s)

lemma keeps_readAccount (a : Address) :
    HostM.Keeps I (attempt (World.account a) : HostM (Machine ι) (Option Account)) :=
  keeps_attempt hI (keeps_onRead hI (World.reading_account a))

lemma keeps_readSlot (a : Address) (index : Word) :
    HostM.Keeps I (attempt (World.slot a index) : HostM (Machine ι) Word) :=
  keeps_attempt hI (keeps_onRead hI (World.reading_slot a index))

lemma keeps_presence (a : Address) :
    HostM.Keeps I (presence a : HostM (Machine ι) (Loaded AccountPresence)) :=
  .bind (keeps_access hI a) fun _ => .bind (keeps_readAccount hI a) fun _ => .pure _

lemma keeps_balance (a : Address) :
    HostM.Keeps I (balance a : HostM (Machine ι) (Loaded Word)) :=
  .bind (keeps_access hI a) fun _ =>
    .bind (keeps_attempt hI (keeps_onRead hI (World.reading_accountOrEmpty a))) fun _ => .pure _

lemma keeps_code (a : Address) : HostM.Keeps I (code a : HostM (Machine ι) (Loaded Code)) :=
  .bind (keeps_access hI a) fun _ =>
    .bind (keeps_attempt hI (keeps_onRead hI (World.reading_codeOf a))) fun _ => .pure _

lemma keeps_codeHash (a : Address) :
    HostM.Keeps I (codeHash a : HostM (Machine ι) (Loaded Hash)) := by
  refine .bind (keeps_access hI a) fun _ => .bind (keeps_readAccount hI a) fun record? => ?_
  cases record? <;> exact .pure _

lemma keeps_loadSlot (a : Address) (index : Word) :
    HostM.Keeps I (loadSlot a index : HostM (Machine ι) (Loaded Word)) :=
  .bind (keeps_accessSlot hI _) fun _ => .bind (keeps_readSlot hI a index) fun _ => .pure _

/-- Setting a slot keeps what reads and the write itself keep. -/
lemma keeps_storeSlot (a : Address) (index value : Word)
    (h : Keeps I (onWorld (World.setSlot a index value) : MachineM StateError ι Unit)) :
    HostM.Keeps I (storeSlot a index value : HostM (Machine ι) (Loaded Gas.SlotWrite)) :=
  .bind (keeps_accessSlot hI _) fun _ => .bind (keeps_readSlot hI a index) fun _ =>
    .bind (keeps_attempt hI (keeps_onRead hI (World.reading_flushedSlot a index))) fun _ =>
      .bind (keeps_attempt hI h) fun _ => .pure _

end

lemma keeps_deposit [Ledger] {I : World → Prop} (balance value : Word) :
    Keeps I (Ledger.deposit balance value) := by
  unfold Ledger.deposit
  cases Ledger.add balance value with
  | error e => exact .throw e
  | ok sum => exact .pure sum

lemma keeps_withdraw [Ledger] {I : World → Prop} (balance value : Word) :
    Keeps I (Ledger.withdraw balance value) := by
  unfold Ledger.withdraw
  cases Ledger.sub balance value with
  | error e => exact .throw e
  | ok rest => exact .pure rest

lemma keeps_sweep [Ledger] {w₀ : World} (a beneficiary : Address) (record target : Account)
    (deletes : Bool) : Keeps w₀.SameSlots (sweep a beneficiary record target deletes) :=
  .ite
    (.bind (keeps_deposit _ _) fun _ => .bind (World.keeps_sameSlots_putAccount _ _) fun _ =>
      World.keeps_sameSlots_putAccount _ _)
    (World.keeps_sameSlots_putAccount _ _)

lemma keeps_selfDestruct [Ledger] {I : Machine ι → Prop} (hI : Robust I) {inspector : Inspector ι}
    {a beneficiary : Address}
    (hook : ∀ value m, I m → I (inspect (inspector.selfDestruct a beneficiary value) m).2) :
    HostM.Keeps I (selfDestruct inspector a beneficiary) :=
  .bind .get fun _ => .bind (keeps_access hI.stable beneficiary) fun _ =>
    .bind (keeps_readAccount hI.stable beneficiary) fun _ =>
      .bind (keeps_attempt hI.stable
        (keeps_onRead hI.stable (World.reading_accountOrEmpty a))) fun _ =>
        .bind .get fun _ =>
          .bind (keeps_attempt hI.stable (hI.onWorld fun _ => keeps_sweep _ _ _ _ _)) fun _ =>
            .bind (.modify fun m hm => hI.substate (hI.journal hm
              ((m.context.journal.continues_touch a).trans
                (Journal.continues_touch _ beneficiary)))) fun _ =>
              .bind (fun m hm => hook _ m hm) fun _ => .pure _

/-! ## Moves -/

/-- Running messages goes on from the open checkpoints. -/
def RunContinues (run : Message → MachineM StateError Unit FrameResult) : Prop :=
  ∀ message (m : Machine Unit), m.Continues ((run message).run m).2

variable {run : Message → MachineM StateError Unit FrameResult} {m m' : Machine Unit}

lemma runChild_continues (hrun : RunContinues run) (message : Message) (m : Machine Unit) :
    m.Continues (runChild run message m).2 := by
  have h := hrun message m
  unfold runChild
  split <;> rename_i hr <;> rw [hr] at h <;> exact h.trans ⟨⟨rfl, .refl _, .refl _⟩, rfl⟩

/-- With the inspector that does nothing, a call is the run of its message. -/
lemma call_silent (request : CallRequest) (m : Machine Unit) :
    call .silent run request m =
      (⟨(runChild run (m.handDown (.ofCall request (m.depth + 1))) m).1.outcome, request.out⟩,
        (runChild run (m.handDown (.ofCall request (m.depth + 1))) m).2) :=
  rfl

/-- With the inspector that does nothing, a creation is the run of its message. -/
lemma create_silent (request : CreateRequest) (m : Machine Unit) :
    create .silent run request m =
      (⟨(runChild run (m.handDown (.ofCreate request (m.depth + 1))) m).1.outcome,
          (runChild run (m.handDown (.ofCreate request (m.depth + 1))) m).1.address?⟩,
        (runChild run (m.handDown (.ofCreate request (m.depth + 1))) m).2) :=
  rfl

lemma host_silent [Ledger] (run : Message → MachineM StateError Unit FrameResult) :
    (host .silent run).Silent :=
  ⟨fun _ _ => rfl, fun _ _ => rfl⟩

lemma move_continues [Ledger] (hrun : RunContinues run) {x y : Frame × Machine Unit}
    (h : (host .silent run).Move x y) : x.2.Continues y.2 := by
  have hI := stable_continues x.2
  cases h with
  | alone => exact .refl _
  | presence a => exact keeps_presence hI a _ (.refl _)
  | balance a => exact keeps_balance hI a _ (.refl _)
  | code a => exact keeps_code hI a _ (.refl _)
  | codeHash a => exact keeps_codeHash hI a _ (.refl _)
  | loadSlot index => exact keeps_loadSlot hI _ index _ (.refl _)
  | storeSlot index value =>
    exact keeps_storeSlot hI _ index value (keeps_onWorld fun _ => World.keeps_setSlot _ _ _) _ (.refl _)
  | loadTransient => exact .refl _
  | storeTransient index value => exact .journal (Journal.continues_tstore _ _ value)
  | log => exact ⟨.refl _, rfl⟩
  | selfDestruct beneficiary =>
    refine keeps_selfDestruct (robust_continues _) ?_ _ (.refl _)
    exact fun _ _ h => h
  | create _ _ hcreate =>
    have h := (create_silent _ _).symm.trans hcreate
    exact Prod.ext_iff.1 h |>.2 ▸ runChild_continues hrun _ _
  | call _ _ hcall =>
    have h := (call_silent _ _).symm.trans hcall
    exact Prod.ext_iff.1 h |>.2 ▸ runChild_continues hrun _ _

/-- The run of a frame goes on from the open checkpoints. -/
lemma run_continues [Ledger] (hrun : RunContinues run) (f : Frame) (m : Machine Unit) :
    m.Continues ((host .silent run).run f m).2 := by
  have h := Host.run_reaches (host_silent run) f m
  generalize (host .silent run).run f m = y at h
  induction h with
  | refl => exact .refl _
  | tail _ hmove ih => exact ih.trans (move_continues hrun hmove)

/-! ## Frames -/

lemma keeps_moveValue [Ledger] {w₀ : World} (features : Features) (sender receiver : Address)
    (value : Word) : Keeps w₀.SameSlots (moveValue features sender receiver value) :=
  .ite
    (.ite (.bind (World.reading_exists? receiver).keeps_sameSlots fun _ =>
      .ite (World.keeps_sameSlots_putAccount _ _) (.pure _)) (.pure _))
    (.bind (World.reading_accountOrEmpty sender).keeps_sameSlots fun _ =>
      .bind (keeps_withdraw _ _) fun _ => .bind (World.keeps_sameSlots_putAccount _ _) fun _ =>
        .bind (World.reading_accountOrEmpty receiver).keeps_sameSlots fun _ =>
          .bind (keeps_deposit _ _) fun _ => World.keeps_sameSlots_putAccount _ _)

lemma keeps_install {w₀ : World} (a : Address) (output : Bytes) :
    Keeps w₀.SameSlots (install a output) :=
  .bind (World.keeps_sameSlots_putCode _) fun _ =>
    .bind (World.reading_accountOrEmpty a).keeps_sameSlots fun _ =>
      World.keeps_sameSlots_putAccount _ _

section

variable {I : Machine ι → Prop} (hI : Stable I)

include hI

lemma keeps_runPrecompile (p : Precompile) (message : Message) :
    Keeps I (runPrecompile p message : MachineM StateError ι FrameResult) := by
  refine .bind .get fun _ => ?_
  dsimp only
  split
  · exact .bind (keeps_report hI nofun) fun _ => .pure _
  · exact .pure _

lemma keeps_calledCode (message : Message) :
    Keeps I (calledCode message : MachineM StateError ι Code) := by
  unfold calledCode
  split
  · exact .pure _
  · exact keeps_onRead hI (World.reading_codeOf _)

lemma keeps_isTaken (a : Address) : Keeps I (isTaken a : MachineM StateError ι Bool) := by
  refine .bind (keeps_onRead hI (World.reading_account a)) fun record? => ?_
  cases record? <;> exact .pure _

lemma keeps_lacksFunds (message : Message) :
    Keeps I (lacksFunds message : MachineM StateError ι Bool) :=
  .ite (.bind (keeps_onRead hI (World.reading_accountOrEmpty _)) fun _ => .pure _) (.pure _)

end

section

variable {I : Machine ι → Prop} (hI : Robust I)

include hI

lemma keeps_transfer [Ledger] (sender receiver : Address) (value : Word) :
    Keeps I (transfer sender receiver value : MachineM StateError ι Unit) :=
  .bind (keeps_onJournal hI.stable fun j => j.notes_touch receiver) fun _ =>
    .bind .get fun _ => hI.onWorld fun _ => keeps_moveValue _ _ _ _

lemma keeps_deploy (a : Address) (o : Outcome) :
    Keeps I (deploy a o : MachineM StateError ι FrameResult) :=
  .bind .get fun _ =>
    .ite
      (.bind (hI.onWorld fun _ => keeps_install a _) fun _ => .pure _)
      (.pure _)

lemma keeps_prepareAccount [Ledger] (message : Message) (a : Address) :
    Keeps I (prepareAccount message a : MachineM StateError ι Unit) :=
  .bind (keeps_onRead hI.stable (World.reading_accountOrEmpty a)) fun _ => .bind .get fun _ =>
    .bind (hI.onWorld fun _ => World.keeps_sameSlots_putAccount _ _) fun _ =>
      .bind (keeps_transfer hI _ _ _) fun _ => .modify fun _ hm => hI.substate hm

end

variable {m₀ : Machine Unit}

/-- The run of a frame on the machine, with the inspector that does nothing. -/
lemma runFrame_run [Ledger] (f : Frame) (m : Machine Unit) :
    (runFrame .silent run f).run m =
      match (host .silent run).run f m with
      | (f', m') =>
        match m'.parked? with
        | some e => (.error e, { m' with parked? := none })
        | none => (.ok f'.outcome, m') :=
  rfl

lemma keeps_runFrame [Ledger] (hrun : RunContinues run) (f : Frame) :
    Keeps m₀.Continues (runFrame .silent run f) := by
  intro m hm
  have h := run_continues hrun f m
  rw [runFrame_run]
  rcases hy : (host .silent run).run f m with ⟨f', m'⟩
  rw [hy] at h
  dsimp only
  split
  · exact hm.trans (h.trans ⟨.refl _, rfl⟩)
  · exact hm.trans h

lemma keeps_runCalled [Ledger] (hrun : RunContinues run) (message : Message) (target : Address) :
    Keeps m₀.Continues (runCalled .silent run message target) := by
  refine .bind .get fun _ => ?_
  dsimp only
  split
  · exact keeps_runPrecompile (stable_continues _) _ _
  · exact .bind (keeps_calledCode (stable_continues _) _) fun _ =>
      .ite (.pure _) (.bind (keeps_runFrame hrun _) fun _ => .pure _)

lemma keeps_callBody [Ledger] (hrun : RunContinues run) (message : Message) (target : Address) :
    Keeps m₀.Continues (callBody .silent run message target) :=
  .ite (.bind (keeps_transfer (robust_continues _) _ _ _) fun _ => keeps_runCalled hrun _ _)
    (keeps_runCalled hrun _ _)

lemma keeps_construct [Ledger] (hrun : RunContinues run) (message : Message) (a : Address) :
    Keeps m₀.Continues (construct .silent run message a) :=
  .bind (keeps_isTaken (stable_continues _) a) fun _ =>
    .ite (.bind (keeps_report (stable_continues _) nofun) fun _ => .pure _)
      (.bind (keeps_prepareAccount (robust_continues _) message a) fun _ => .bind .get fun _ =>
        .bind (keeps_runFrame hrun _) fun _ => .ite (keeps_deploy (robust_continues _) _ _) (.pure _))

lemma keeps_callFrame [Ledger] (hrun : RunContinues run) (message : Message) (target : Address) :
    Keeps m₀.Continues (callFrame .silent run message target) :=
  .ite (.pure _) <| .bind (keeps_lacksFunds (stable_continues _) message) fun _ =>
    .ite (.pure _) (keeps_guarded fun _ => keeps_callBody hrun message target)

lemma keeps_createFrame [Ledger] (hrun : RunContinues run) (message : Message) :
    Keeps m₀.Continues (createFrame .silent run message) :=
  .ite (.pure _) <| .bind (keeps_onWorld fun _ => World.keeps_accountOrEmpty _) fun _ =>
    .ite (.pure _) <| .ite (.pure _) <|
      .bind (keeps_onWorld fun _ => World.keeps_putAccount _ _) fun _ =>
        .bind (keeps_onJournal (stable_continues _) fun j => j.notes_access _) fun _ =>
          keeps_guarded fun _ => keeps_construct hrun message _

lemma keeps_frame [Ledger] (hrun : RunContinues run) (message : Message) :
    Keeps m₀.Continues (frame .silent run message) := by
  unfold frame
  split
  · exact keeps_callFrame hrun message _
  · exact keeps_createFrame hrun message

/-! ## Messages -/

/-- The machine in the frame of a message that starts. -/
def entered (m : Machine ι) (message : Message) : Machine ι :=
  { m with
    context := m.context.report (.frameStart message.depth message.caller message.to?
      message.value message.gasLimit)
    depth := message.depth
    substate := Substate.ofMessage message }

/-- A message runs in a frame of its own; depth and substate of the frame around it come back. -/
lemma executeBy_run (body : Message → MachineM StateError ι FrameResult) (message : Message)
    (m : Machine ι) :
    (executeBy body message).run m =
      match (body message).run (m.entered message) with
      | (.ok result, m') =>
        (.ok (result.withSubstate message m'.substate),
          { m' with
            context := m'.context.report (.frameEnd message.depth
              (result.withSubstate message m'.substate).outcome.status
              (result.withSubstate message m'.substate).outcome.gas.spent)
            depth := m.depth
            substate := m.substate })
      | (.error e, m') => (.error e, { m' with depth := m.depth, substate := m.substate }) := by
  unfold executeBy report
  rw [Program.run_bind_ok (Program.run_modify _ m), Program.run_bind_ok (Program.run_get _),
    Program.run_bind_ok (Program.run_set _ _), Program.run_bind, Program.run_tryCatch]
  rcases hrun : (body message).run (m.entered message) with ⟨_ | result, m'⟩ <;>
    unfold entered at hrun <;> rw [hrun] <;> rfl

lemma executeWith_run [Ledger] (inspector : Inspector ι)
    (run : Message → MachineM StateError ι FrameResult) (message : Message) (m : Machine ι) :
    (executeWith inspector run message).run m =
      match (frame inspector run message).run (m.entered message) with
      | (.ok result, m') =>
        (.ok (result.withSubstate message m'.substate),
          { m' with
            context := m'.context.report (.frameEnd message.depth
              (result.withSubstate message m'.substate).outcome.status
              (result.withSubstate message m'.substate).outcome.gas.spent)
            depth := m.depth
            substate := m.substate })
      | (.error e, m') => (.error e, { m' with depth := m.depth, substate := m.substate }) :=
  executeBy_run _ message m

lemma executeWith_continues [Ledger] (hrun : RunContinues run) :
    RunContinues (executeWith .silent run) := by
  intro message m
  have h := keeps_frame hrun message (m.entered message) (.refl _)
  rw [executeWith_run]
  split <;> rename_i hr <;> rw [hr] at h <;> exact ⟨⟨h.context.env, h.context.world,
    h.context.journal⟩, rfl⟩

lemma idle_continues : RunContinues fun message =>
    return { outcome := .idle .callTooDeep message.gasLimit } :=
  fun _ m => .refl m

lemma executeWithin_continues [Ledger] (levels : Nat) : RunContinues (executeWithin .silent levels) := by
  induction levels with
  | zero => exact executeWith_continues idle_continues
  | succ levels ih => exact executeWith_continues ih

/-- The execution of a message goes on from the open checkpoints. -/
theorem execute_continues [Ledger] : RunContinues (execute .silent) :=
  fun message => executeWithin_continues _ message

end Evm.Machine
