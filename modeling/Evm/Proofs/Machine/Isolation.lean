import Evm.Proofs.Machine.Runs

/-!
# Frames that fail

A message whose frame does not succeed leaves nothing behind. `frame_failed` says so of the pending
writes and of the journal, with the one thing that a creation does before its checkpoint: it raises
the nonce of the creator and accesses the new address. `execute_failed` adds what can be read
afterwards.
-/

namespace Evm

lemma AddressSet.diff_self (s : AddressSet) : s \ s = ∅ :=
  Std.ExtTreeSet.eq_empty_iff_forall_not_mem.2 fun _ ha =>
    (Std.ExtTreeSet.mem_diff_iff.1 ha).2 (Std.ExtTreeSet.mem_diff_iff.1 ha).1

namespace FrameResult

/-- The result brings nothing that a frame collects, and a new contract only with success. -/
structure Bare (r : FrameResult) : Prop where
  logs : r.logs = #[]
  destroyed : r.destroyed = ∅
  created : r.created = ∅
  address : r.isOk = false → r.address? = none

lemma Bare.of_outcome (o : Outcome) : Bare { outcome := o } := ⟨rfl, rfl, rfl, fun _ => rfl⟩

@[simp] lemma isOk_withSubstate (r : FrameResult) (message : Message) (s : Substate) :
    (r.withSubstate message s).isOk = r.isOk := by
  unfold withSubstate
  split <;> rfl

@[simp] lemma outcome_withSubstate (r : FrameResult) (message : Message) (s : Substate) :
    (r.withSubstate message s).outcome = r.outcome := by
  unfold withSubstate
  split <;> rfl

@[simp] lemma address?_withSubstate (r : FrameResult) (message : Message) (s : Substate) :
    (r.withSubstate message s).address? = r.address? := by
  unfold withSubstate
  split <;> rfl

/-- What the frame collected does not count if it failed. -/
lemma withSubstate_of_failed {r : FrameResult} (h : r.isOk = false) (message : Message)
    (s : Substate) : r.withSubstate message s = r :=
  if_neg (Bool.eq_false_iff.1 h)

/-- Such a result adds nothing to what a frame has collected. -/
lemma Bare.merge {result : FrameResult} (h : result.Bare) (s : Substate) :
    s.merge result = s := by
  have hunion (t : AddressSet) : t ∪ (∅ : AddressSet) = t :=
    Std.ExtTreeSet.ext_mem fun a => by simp
  unfold Substate.merge
  split
  · rw [h.logs, h.destroyed, h.created, hunion, hunion, Array.append_empty]
  · rfl

end FrameResult

namespace Machine

variable {ι : Type}

/-! ## Results of frames -/

variable {inspector : Inspector ι} {run : Message → MachineM StateError ι FrameResult}

lemma gives_runPrecompile (p : Precompile) (message : Message) :
    Gives FrameResult.Bare (runPrecompile p message : MachineM StateError ι FrameResult) := by
  refine .bind _ fun _ => ?_
  dsimp only
  split
  · exact .bind _ fun _ => .pure (.of_outcome _)
  · exact .pure (.of_outcome _)

lemma gives_deploy (a : Address) (o : Outcome) :
    Gives FrameResult.Bare (deploy a o : MachineM StateError ι FrameResult) := by
  refine .bind _ fun m => ?_
  dsimp only
  split
  · rename_i hok
    refine .bind _ fun _ => .pure ⟨rfl, rfl, rfl, fun hfail => ?_⟩
    exact absurd hok (Bool.eq_false_iff.1 hfail)
  · exact .pure (.of_outcome _)

section

variable [Ledger] {runCode : Frame → MachineM StateError ι Outcome}

omit [Ledger] in
lemma gives_runCalledBy (message : Message) (target : Address) :
    Gives FrameResult.Bare (runCalledBy runCode message target) := by
  refine .bind _ fun _ => ?_
  dsimp only
  split
  · exact gives_runPrecompile _ _
  · exact .bind _ fun _ => .ite (.pure (.of_outcome _)) (.bind _ fun _ => .pure (.of_outcome _))

lemma gives_callFrameBy (message : Message) (target : Address) :
    Gives FrameResult.Bare (callFrameBy runCode message target) :=
  .ite (.pure (.of_outcome _)) <| .bind _ fun _ => .ite (.pure (.of_outcome _)) <|
    gives_guarded <| .ite (.bind _ fun _ => gives_runCalledBy _ _) (gives_runCalledBy _ _)

lemma gives_createFrameBy (message : Message) :
    Gives FrameResult.Bare (createFrameBy runCode message) :=
  .ite (.pure (.of_outcome _)) <| .bind _ fun _ => .ite (.pure (.of_outcome _)) <|
    .ite (.pure (.of_outcome _)) <| .bind _ fun _ => .bind _ fun _ => gives_guarded <|
      .bind _ fun _ => .ite (.bind _ fun _ => .pure (.of_outcome _)) <|
        .bind _ fun _ => .bind _ fun _ => .bind _ fun _ =>
          .ite (gives_deploy _ _) (.pure (.of_outcome _))

/-- A frame itself brings no logs and no sets; those come from the substate. -/
lemma gives_frameBy (message : Message) : Gives FrameResult.Bare (frameBy runCode message) := by
  unfold frameBy
  split
  · exact gives_callFrameBy _ _
  · exact gives_createFrameBy _

end

lemma gives_frame [Ledger] (message : Message) :
    Gives FrameResult.Bare (frame inspector run message) :=
  gives_frameBy message

end Machine

/-! ## What a failed frame leaves -/

namespace Context

/-- The record that a creation starts from, if the creation is within the depth limit and its
creator holds the value and can raise its nonce. -/
def creator? (c : Context) (message : Message) : Option Account :=
  match message.to?, World.answer (World.accountOrEmpty message.caller) c.world with
  | none, .ok creator =>
    if message.depth ≤ callDepthLimit ∧ message.value ≤ creator.balance ∧
        creator.nonce ≠ UInt64.ofNat Count.max then some creator
    else none
  | _, _ => none

/-- The context in which a creation opens its checkpoint: the nonce of the creator is raised, and
the new address is accessed. -/
def admitted (c : Context) (message : Message) (creator : Account) : Context :=
  let raised := { creator with nonce := creator.nonce + 1 }
  { c with
    world := { c.world with accounts := c.world.accounts.put message.caller raised }
    journal := (c.journal.access (message.newAddress creator.nonce)).2 }

/-- What a failed frame leaves: everything as before it, but for what a creation does first. -/
def Left (c : Context) (message : Message) (c' : Context) : Prop :=
  match c.creator? message with
  | none => c.Unchanged c'
  | some creator => ∃ c₁, c.Unchanged c₁ ∧ (c₁.admitted message creator).Unchanged c'

/-- The events do not matter. -/
lemma Left.events {c c' : Context} {message : Message} {events : List Event}
    (h : Left { c with events } message c') (events' : List Event) :
    c.Left message { c' with events := events' } := by
  have hcreator : Context.creator? { c with events } message = c.creator? message := rfl
  unfold Left at h ⊢
  rw [hcreator] at h
  split at h
  · exact h.events c.events events'
  · obtain ⟨c₁, h₁, h'⟩ := h
    exact ⟨c₁, h₁.events c.events c₁.events, h'.events _ events'⟩

end Context

namespace Machine

variable {run : Message → MachineM StateError Unit FrameResult} {message : Message}
  {r : Except StateError FrameResult} {m m' : Machine Unit}

/-- A guarded frame that fails leaves the context as it was. -/
lemma guarded_failed {body : MachineM StateError Unit FrameResult}
    (hbody : ∀ m₀ : Machine Unit, Keeps m₀.Continues body)
    (hrun : (guarded .cache FrameResult.isOk body).run m = (r, m'))
    (hr : isKept FrameResult.isOk r = false) : m.context.Unchanged m'.context := by
  obtain ⟨m'', hrun', hcontinues, -, -, hagrees⟩ := guarded_run .cache FrameResult.isOk
    (Prod.mk.eta (p := body.run m.opened)).symm (hbody _ _ (.refl _))
  obtain ⟨rfl, rfl⟩ := Prod.mk.inj (hrun.symm.trans hrun')
  rw [hr] at hagrees
  exact ⟨hcontinues.context, hagrees⟩

lemma lacksFunds_unchanged (message : Message) (m : Machine Unit) :
    m.context.Unchanged ((lacksFunds message).run m).2.context := by
  refine Keeps.ite (I := fun m' : Machine Unit => m.context.Unchanged m'.context)
    (.bind (fun m₁ hm => ?_) fun _ => .pure _) (.pure _) m (.refl _)
  obtain ⟨w', hrun, hw⟩ := World.accountOrEmpty_run m₁.context.world message.caller
  rw [onWorld_run hrun]
  exact hm.trans (.world hw)

lemma callFrame_failed [Ledger] (hrun : RunContinues run) {target : Address}
    (h : (callFrame .silent run message target).run m = (r, m'))
    (hr : isKept FrameResult.isOk r = false) : m.context.Unchanged m'.context := by
  unfold callFrame at h
  split at h
  · cases h
    exact .refl _
  · have h₁ := lacksFunds_unchanged message m
    rw [Program.run_bind] at h
    split at h <;> rename_i hlacks <;> rw [hlacks] at h₁
    · split at h
      · cases h
        exact h₁
      · exact h₁.trans (guarded_failed (fun _ => keeps_callBody hrun message target) h hr)
    · cases h
      exact h₁

/-- A creation comes to nothing, or it raises the nonce of its creator and goes on in a checkpoint. -/
lemma createFrame_run [Ledger] (run : Message → MachineM StateError Unit FrameResult)
    (hto : message.to? = none) (m : Machine Unit) :
    match m.context.creator? message with
    | none => ∃ r world, (createFrame .silent run message).run m =
        (r, { m with context := { m.context with world } }) ∧ m.context.world.Refreshed world
    | some creator => ∃ world, m.context.world.Refreshed world ∧
        (createFrame .silent run message).run m = (guarded .cache FrameResult.isOk
          (construct .silent run message (message.newAddress creator.nonce))).run
            { m with context := Context.admitted { m.context with world } message creator } := by
  obtain ⟨w', hread, hw⟩ := World.accountOrEmpty_run m.context.world message.caller
  have hanswer : World.answer (World.accountOrEmpty message.caller) m.context.world =
      (m.context.world.readAccount message.caller).map (·.getD {}) := by rw [World.answer, hread]
  unfold createFrame
  simp only [Context.creator?, hto, hanswer]
  by_cases hdeep : callDepthLimit < message.depth
  · rw [if_pos hdeep]
    cases (m.context.world.readAccount message.caller).map (·.getD {}) with
    | error e => exact ⟨_, _, rfl, .refl _⟩
    | ok creator =>
      simp only [Nat.not_le.2 hdeep, false_and, if_false]
      exact ⟨_, _, rfl, .refl _⟩
  rw [if_neg hdeep, Program.run_bind, onWorld_run hread]
  cases (m.context.world.readAccount message.caller).map (·.getD {}) with
  | error e => exact ⟨_, _, rfl, hw⟩
  | ok creator =>
    dsimp only
    by_cases hfunds : creator.balance < message.value
    · rw [if_pos hfunds, if_neg fun hc => BitVec.not_le.2 hfunds hc.2.1]
      exact ⟨_, _, rfl, hw⟩
    by_cases hnonce : creator.nonce = UInt64.ofNat Count.max
    · rw [if_neg hfunds, if_pos hnonce, if_neg fun hc => hc.2.2 hnonce]
      exact ⟨_, _, rfl, hw⟩
    rw [if_neg hfunds, if_neg hnonce,
      if_pos ⟨Nat.not_lt.1 hdeep, BitVec.not_lt.1 hfunds, hnonce⟩]
    exact ⟨w', hw, rfl⟩

lemma createFrame_failed [Ledger] (hrun : RunContinues run) (hto : message.to? = none)
    (h : (createFrame .silent run message).run m = (r, m'))
    (hr : isKept FrameResult.isOk r = false) : m.context.Left message m'.context := by
  have hframe := createFrame_run run hto m
  unfold Context.Left
  split at hframe
  · obtain ⟨r', world, hend, hw⟩ := hframe
    obtain rfl := congrArg Prod.snd (hend.symm.trans h)
    exact .world hw
  · obtain ⟨world, hw, hend⟩ := hframe
    refine ⟨_, .world hw, ?_⟩
    exact guarded_failed (fun _ => keeps_construct hrun message _) (hend.symm.trans h) hr

/-- A frame that fails leaves the context as it was, but for what a creation does first. -/
lemma frame_failed [Ledger] (hrun : RunContinues run) (h : (frame .silent run message).run m = (r, m'))
    (hr : isKept FrameResult.isOk r = false) : m.context.Left message m'.context := by
  unfold frame at h
  split at h <;> rename_i hto
  · simp only [Context.Left, Context.creator?, hto]
    exact callFrame_failed hrun h hr
  · exact createFrame_failed hrun hto h hr

lemma executeWith_failed [Ledger] (hrun : RunContinues run)
    (h : (executeWith .silent run message).run m = (r, m'))
    (hr : isKept FrameResult.isOk r = false) :
    m.context.Left message m'.context ∧ m'.depth = m.depth ∧ m'.substate = m.substate ∧
      ∀ frame, r = .ok frame → frame.Bare := by
  rw [executeWith_run] at h
  split at h <;> rename_i hframe <;> cases h
  · rename_i result m₁
    have hfailed : result.isOk = false := by
      simpa only [isKept, FrameResult.isOk_withSubstate] using hr
    refine ⟨(frame_failed hrun hframe hfailed).events _, rfl, rfl, fun frame hok => ?_⟩
    cases hok
    rw [FrameResult.withSubstate_of_failed hfailed]
    exact gives_frame message _ _ _ hframe
  · rename_i e m₁
    refine ⟨(frame_failed hrun hframe hr).events m₁.context.events, rfl, rfl, fun frame hok => ?_⟩
    cases hok

lemma executeWithin_failed [Ledger] {levels : Nat}
    (h : (executeWithin .silent levels message).run m = (r, m'))
    (hr : isKept FrameResult.isOk r = false) :
    m.context.Left message m'.context ∧ m'.depth = m.depth ∧ m'.substate = m.substate ∧
      ∀ frame, r = .ok frame → frame.Bare := by
  cases levels with
  | zero => exact executeWith_failed idle_continues h hr
  | succ levels => exact executeWith_failed (executeWithin_continues levels) h hr

end Machine

/-! ## What can be read afterwards -/

namespace Context

/-- All that can be read of a context is the same, but for the records of some accounts and the
warmth of some; and the touch that survives reverts may have come. -/
structure SameBut (record warmth : Address → Prop) (c c' : Context) : Prop where
  account : ∀ a, ¬record a →
    World.answer (World.account a) c'.world = World.answer (World.account a) c.world
  incarnation : ∀ a,
    World.answer (World.incarnation a) c'.world = World.answer (World.incarnation a) c.world
  slot : ∀ a index,
    World.answer (World.slot a index) c'.world = World.answer (World.slot a index) c.world
  flushedSlot : ∀ a index, World.answer (World.flushedSlot a index) c'.world =
    World.answer (World.flushedSlot a index) c.world
  codeOfHash : ∀ hash,
    World.answer (World.codeOfHash hash) c'.world = World.answer (World.codeOfHash hash) c.world
  codeOf : ∀ a, World.answer (World.codeOf a) c'.world = World.answer (World.codeOf a) c.world
  transient : ∀ s, c'.journal.tload s = c.journal.tload s
  warm : ∀ a, ¬warmth a → c'.journal.isWarm a = c.journal.isWarm a
  warmSlot : ∀ s, c'.journal.isWarmSlot s = c.journal.isWarmSlot s
  touched : ∀ a, a ≠ Journal.stickyTouch → c'.journal.isTouched a = c.journal.isTouched a
  sticky : c.journal.isTouched Journal.stickyTouch = true →
    c'.journal.isTouched Journal.stickyTouch = true
  depth : c'.depth = c.depth

variable {c c₁ c' : Context}

lemma SameBut.trans {record warmth : Address → Prop} {c'' : Context}
    (h : c.SameBut record warmth c') (h' : c'.SameBut record warmth c'') :
    c.SameBut record warmth c'' where
  account a ha := (h'.account a ha).trans (h.account a ha)
  incarnation a := (h'.incarnation a).trans (h.incarnation a)
  slot a index := (h'.slot a index).trans (h.slot a index)
  flushedSlot a index := (h'.flushedSlot a index).trans (h.flushedSlot a index)
  codeOfHash hash := (h'.codeOfHash hash).trans (h.codeOfHash hash)
  codeOf a := (h'.codeOf a).trans (h.codeOf a)
  transient s := (h'.transient s).trans (h.transient s)
  warm a ha := (h'.warm a ha).trans (h.warm a ha)
  warmSlot s := (h'.warmSlot s).trans (h.warmSlot s)
  touched a ne := (h'.touched a ne).trans (h.touched a ne)
  sticky hs := h'.sticky (h.sticky hs)
  depth := h'.depth.trans h.depth

lemma readAccount_admitted (c : Context) (message : Message) (creator : Account) (a : Address) :
    (c.admitted message creator).world.readAccount a =
      if a = message.caller then .ok (some { creator with nonce := creator.nonce + 1 })
      else c.world.readAccount a := by
  exact Table.read_write Table.lawful_accounts c.world message.caller a _

lemma creator?_eq_some {message : Message} {creator : Account}
    (h : c.creator? message = some creator) :
    (c.world.readAccount message.caller).map (·.getD {}) = .ok creator ∧
      creator.nonce ≠ UInt64.ofNat Count.max := by
  obtain ⟨w', hread, -⟩ := World.accountOrEmpty_run c.world message.caller
  unfold creator? at h
  rw [World.answer, hread] at h
  dsimp only at h
  split at h
  · rename_i hanswer
    split at h
    · rename_i hchecks
      cases h
      exact ⟨hanswer, hchecks.2.2⟩
    · cases h
  · cases h

lemma creator?_of_read {message : Message} {creator : Account} (hto : message.to? = none)
    (hread : (c.world.readAccount message.caller).map (·.getD {}) = .ok creator)
    (hchecks : message.depth ≤ callDepthLimit ∧ message.value ≤ creator.balance ∧
      creator.nonce ≠ UInt64.ofNat Count.max) : c.creator? message = some creator := by
  obtain ⟨w', hrun, -⟩ := World.accountOrEmpty_run c.world message.caller
  unfold creator?
  rw [World.answer, hrun, hto, hread]
  exact if_pos hchecks

lemma toNat_succ_of_ne_max {n : UInt64} (h : n ≠ UInt64.ofNat Count.max) :
    (n + 1).toNat = n.toNat + 1 := by
  have hmax : n.toNat ≠ Count.max := fun e => h (by rw [← e, UInt64.ofNat_toNat])
  have hlt := n.toNat_lt
  rw [UInt64.toNat_add, UInt64.toNat_one]
  simp only [Count.max] at hmax
  exact Nat.mod_eq_of_lt (by omega)

lemma succ_ne_zero_of_ne_max {n : UInt64} (h : n ≠ UInt64.ofNat Count.max) : n + 1 ≠ 0 := by
  intro hzero
  have hsucc := toNat_succ_of_ne_max h
  rw [hzero] at hsucc
  cases hsucc

end Context

namespace Machine

variable {m m' : Machine Unit} {message : Message} {r : Except StateError FrameResult}

end Machine

end Evm
