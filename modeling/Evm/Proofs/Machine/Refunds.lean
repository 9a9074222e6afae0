import Evm.Proofs.Execution.Upholding
import Evm.Proofs.Machine.GasBounds
import Evm.Proofs.State.Cleared

/-!
# Refunds

A write may be refunded, and a later write of the slot, by whichever frame, may take the refund
back. What a frame is refunded covers at least the slots that were cleared since it was entered
(`World.Earns`): of every write this holds by the schedule (`Gas.clearRefund_le_slotRefund`), what
two steps earn adds up, and where a frame that fails drops its refund, it drops its writes as well.
So it holds of every frame that succeeds (`runEarns_execute`). Where nothing is pending, no slot is
cleared when the outermost frame is entered, and its refund is not negative (`transact_earns`).
-/

namespace Evm

/-! ## Refunds of storage writes -/

namespace Gas

/-- What is refunded under net metering for clearing a slot, and taken back if it is written again.
Without net metering nothing is ever taken back. -/
def clearRefund (features : Features) : Int :=
  if netMetering features then netClearRefund features else 0

lemma clearRefund_nonneg (features : Features) : 0 ≤ clearRefund features := by
  unfold clearRefund netClearRefund
  split
  · split <;> decide
  · exact le_rfl

/-- Reading a slot is no dearer than any change of it. -/
lemma slotRead_le (features : Features) :
    slotRead features ≤ slotSet ∧ slotRead features ≤ netReset features := by
  unfold slotRead netReset
  cases features.has .eip2929 with
  | true =>
    simp only [if_true]
    decide
  | false =>
    simp only [Bool.false_eq_true, if_false]
    split
    · decide
    · split <;> decide

/-- The refund of a write covers what the write changes in the number of cleared slots. -/
lemma clearRefund_le_slotRefund (features : Features) (w : SlotWrite) :
    clearRefund features *
        ((w.initial != 0 && w.new == 0).toNat - (w.initial != 0 && w.present == 0).toNat : Int) ≤
      slotRefund features w := by
  have hclear := clearRefund_nonneg features
  obtain ⟨hset, hreset⟩ := slotRead_le features
  unfold clearRefund slotRefund at *
  cases hnet : netMetering features with
  | false =>
    simp only [Bool.false_eq_true, if_false, zero_mul]
    split <;> decide
  | true =>
    simp only [hnet, if_true] at hclear ⊢
    have hrestoring : (0 : Int) ≤ if w.initial = w.new then
        ((if w.initial = 0 then slotSet else netReset features : Nat) : Int) - slotRead features
        else 0 := by
      split
      · split <;> omega
      · exact le_rfl
    by_cases hsame : w.new = w.present
    · rw [if_pos hsame, hsame, sub_self, mul_zero]
    rw [if_neg hsame]
    generalize netClearRefund features = clear at *
    generalize (if w.initial = w.new then
      ((if w.initial = 0 then slotSet else netReset features : Nat) : Int) - slotRead features
      else 0) = restoring at *
    by_cases hinitial : w.initial = 0
    · rw [hinitial, if_pos rfl]
      change clear * (0 - 0) ≤ _
      rw [sub_self, mul_zero]
      split
      · exact hclear
      · exact (zero_add restoring).symm ▸ hrestoring
    · rw [bne_iff_ne.2 hinitial, Bool.true_and, Bool.true_and, if_neg hinitial]
      by_cases hpresent : w.present = 0
      · have hnew : w.new ≠ 0 := hpresent ▸ hsame
        rw [if_neg fun h => hnew h.2, if_pos hpresent, hpresent, beq_false_of_ne hnew]
        change clear * (0 - 1) ≤ -clear + restoring
        omega
      · rw [if_neg hpresent, beq_false_of_ne hpresent]
        by_cases hnew : w.new = 0
        · rw [if_pos hnew, hnew]
          change clear * (1 - 0) ≤ _
          split <;> omega
        · rw [if_neg fun h => hnew h.2, if_neg hnew, beq_false_of_ne hnew]
          change clear * (0 - 0) ≤ 0 + restoring
          omega

end Gas

namespace World

variable {features : Features} {w w' w'' : World} {refund refund' : Int}

/-- The refund covers the slots that were cleared between the two worlds. -/
def Earns (features : Features) (w w' : World) (refund : Int) : Prop :=
  Gas.clearRefund features * ((w'.cleared : Int) - w.cleared) ≤ refund

lemma Earns.mono (h : w.Earns features w' refund) (hle : refund ≤ refund') :
    w.Earns features w' refund' :=
  h.trans hle

lemma Earns.trans (h : w.Earns features w' refund) (h' : w'.Earns features w'' refund') :
    w.Earns features w'' (refund + refund') := by
  unfold Earns at *
  calc Gas.clearRefund features * ((w''.cleared : Int) - w.cleared)
    _ = Gas.clearRefund features * ((w'.cleared : Int) - w.cleared) +
        Gas.clearRefund features * ((w''.cleared : Int) - w'.cleared) := by ring
    _ ≤ refund + refund' := add_le_add h h'

/-- Where no slot was cleared, no refund is due. -/
lemma earns_zero (h : w'.cleared ≤ w.cleared) : w.Earns features w' 0 :=
  mul_nonpos_of_nonneg_of_nonpos (Gas.clearRefund_nonneg features)
    (sub_nonpos.2 (Int.ofNat_le.2 h))

/-- A write earns what it is refunded. -/
lemma earns_setSlot {w₁ : World} {a : Address} {index initial present value : Word}
    (hw : w.Truthful) (hsame : w.SameSlots w₁)
    (hinitial : w.readFlushedSlot a index = .ok initial)
    (hpresent : w.readSlot a index = .ok present)
    (h : (setSlot a index value).run w₁ = (.ok (), w')) :
    w.Earns features w' (Gas.slotRefund features { initial, present, new := value }) := by
  have hcleared := cleared_setSlot hw hsame hinitial hpresent h
  refine le_trans (mul_le_mul_of_nonneg_left ?_ (Gas.clearRefund_nonneg features))
    (Gas.clearRefund_le_slotRefund features _)
  dsimp only
  omega

end World

/-! ## Noting frames -/

/-- A frame below another one, from the world that it was entered in to the one that it left. -/
structure FrameNote where
  entered : World
  left : World
  outcome : Outcome

/-- If the frame succeeded, its refund covers the slots that were cleared in it. -/
def FrameNote.Earned (features : Features) (note : FrameNote) : Prop :=
  note.outcome.isOk = true → note.entered.Earns features note.left note.outcome.gas.refunded

/-- Notes of the worlds in which frames were entered, and of the frames that were left. -/
abbrev FrameNotes := Notes World FrameNote

/-- The inspector that notes the frames of calls and creations. -/
def Inspector.frames : Inspector FrameNotes where
  call request := do
    modify fun (c, notes) => (c, notes.begin c.world)
    return (request, none)
  callEnd _ response := do
    modify fun (c, notes) => (c, notes.finish fun entered => ⟨entered, c.world, response.outcome⟩)
    return response
  create request := do
    modify fun (c, notes) => (c, notes.begin c.world)
    return (request, none)
  createEnd _ response := do
    modify fun (c, notes) => (c, notes.finish fun entered => ⟨entered, c.world, response.outcome⟩)
    return response

/-- Noting the frames changes nothing. -/
lemma Inspector.alike_frames {W : World → World → Prop} :
    Alike W (fun _ _ => True) .silent frames where
  start _ _ := .pure _
  beforeStep _ := .pure _
  afterStep _ := .pure _
  log _ := .pure _
  call _ := fun _ _ h => ⟨rfl, h.1, trivial⟩
  callEnd _ _ := fun _ _ h => ⟨rfl, h.1, trivial⟩
  create _ := fun _ _ h => ⟨rfl, h.1, trivial⟩
  createEnd _ _ := fun _ _ h => ⟨rfl, h.1, trivial⟩
  selfDestruct _ _ _ := .pure _

/-- The refund that a frame leaves, if it succeeded. -/
def Outcome.refund? (o : Outcome) : Option Int := if o.isOk then some o.gas.refunded else none

/-- The refund that counts of a frame once its checkpoint is closed. -/
def Outcome.refund (o : Outcome) : Int := o.refund?.getD 0

lemma Outcome.refund?_eq_some {o : Outcome} {refund : Int} (h : o.refund? = some refund) :
    o.isOk = true ∧ o.gas.refunded = refund := by
  unfold refund? at h
  split at h
  · exact ⟨by assumption, Option.some.inj h⟩
  · cases h

lemma Outcome.refund_of_isOk {o : Outcome} (h : o.isOk = true) : o.refund = o.gas.refunded := by
  rw [refund, refund?, if_pos h, Option.getD_some]

lemma Outcome.refund_of_failed {o : Outcome} (h : o.isOk = false) : o.refund = 0 := by
  rw [refund, refund?, h]
  rfl

/-- A frame that runs nothing is refunded nothing. -/
lemma Outcome.refund_idle (status : Status) (gasLimit : Nat) :
    (idle status gasLimit).refund = 0 := by
  unfold refund refund?
  split <;> rfl

lemma Frame.refund?_outcome {f : Frame} {refund : Int} (h : f.outcome.refund? = some refund) :
    f.status.isOk = true ∧ f.gas.refunded = refund := by
  obtain ⟨hok, hrefund⟩ := Outcome.refund?_eq_some h
  unfold outcome at hok hrefund
  split at hok <;> rename_i herror
  · have hfailed : f.status.isOk = false := Status.isOk_of_isError herror
    exact absurd hok (Bool.eq_false_iff.1 hfailed)
  · rw [if_neg herror] at hrefund
    exact ⟨hok, hrefund⟩

namespace Machine

variable {features : Features} {m₀ m m' m'' : Machine FrameNotes}

/-- No slot was written, and nothing noted. -/
structure Spares (m m' : Machine FrameNotes) : Prop where
  context : m.context.Continues m'.context
  slots : m.context.world.SameSlots m'.context.world
  observer : m'.observer = m.observer

/-- No incarnation has changed, all frames that were entered meanwhile have been left, and those
that succeeded have earned their refunds. -/
structure Persists (features : Features) (m m' : Machine FrameNotes) : Prop where
  context : m.context.Continues m'.context
  incarnations : m.context.world.SameIncarnations m'.context.world
  begun : m'.observer.begun = m.observer.begun
  earned : ∀ note ∈ m'.observer.ended, note ∈ m.observer.ended ∨ note.Earned features

lemma Spares.refl (m : Machine FrameNotes) : m.Spares m := ⟨.refl _, .refl _, rfl⟩

lemma robust_spares (m₀ : Machine FrameNotes) : Robust m₀.Spares where
  world hm h :=
    ⟨hm.context.trans ⟨rfl, h.continues, .refl _⟩, hm.slots.trans h, hm.observer⟩
  journal hm h := ⟨hm.context.trans ⟨rfl, .refl _, h⟩, hm.slots, hm.observer⟩
  report _ hm := ⟨hm.context.trans ⟨rfl, .refl _, .refl _⟩, hm.slots, hm.observer⟩
  parked hm := ⟨hm.context, hm.slots, hm.observer⟩
  substate hm := ⟨hm.context, hm.slots, hm.observer⟩

lemma Spares.persists (h : m.Spares m') : m.Persists features m' :=
  ⟨h.context, h.slots.toSameIncarnations, congrArg Notes.begun h.observer,
    fun _ hmem => .inl (h.observer ▸ hmem)⟩

lemma Spares.earns (h : m.Spares m') (hw : m.context.world.Truthful) :
    m.context.world.Earns features m'.context.world 0 :=
  World.earns_zero (h.slots.cleared_le hw)

namespace Persists

lemma refl (m : Machine FrameNotes) : m.Persists features m := (Spares.refl m).persists

lemma trans (h : m.Persists features m') (h' : m'.Persists features m'') :
    m.Persists features m'' where
  context := h.context.trans h'.context
  incarnations := h.incarnations.trans h'.incarnations
  begun := h'.begun.trans h.begun
  earned note hmem := (h'.earned note hmem).elim (h.earned note) .inr

lemma features_eq (h : m.Persists features m') : m'.features = m.features :=
  congrArg Env.features h.context.env

lemma truthful (h : m.Persists features m') (hw : m.context.world.Truthful) :
    m'.context.world.Truthful :=
  h.incarnations.truthful hw

end Persists

lemma robust_persists (m₀ : Machine FrameNotes) : Robust (m₀.Persists features) where
  world hm h := hm.trans (Spares.persists ⟨⟨rfl, h.continues, .refl _⟩, h, rfl⟩)
  journal hm h := hm.trans (Spares.persists ⟨⟨rfl, .refl _, h⟩, .refl _, rfl⟩)
  report _ hm := hm.trans (Spares.persists ⟨⟨rfl, .refl _, .refl _⟩, .refl _, rfl⟩)
  parked hm := hm.trans (Spares.persists ⟨.refl _, .refl _, rfl⟩)
  substate hm := hm.trans (Spares.persists ⟨.refl _, .refl _, rfl⟩)

/-! ## Programs -/

section

variable {ε α β : Type} {due : α → Option Int} {due' : β → Option Int}

/-- The program persists, and the refund that is due for its result covers what it cleared. -/
def Earning (features : Features) (due : α → Option Int) (p : MachineM ε FrameNotes α) : Prop :=
  ∀ m : Machine FrameNotes, m.features = features → m.context.world.Truthful →
    Ends (m.Persists features) (fun a m' => ∀ refund, due a = some refund →
      m.context.world.Earns features m'.context.world refund) p m

namespace Earning

variable {p : MachineM ε FrameNotes α} {q : α → MachineM ε FrameNotes β}

lemma pure {a : α} (h : ∀ refund, due a = some refund → 0 ≤ refund) :
    Earning features due (Pure.pure a : MachineM ε FrameNotes α) := fun m _ _ =>
  .pure (.refl m) fun refund hdue => (World.earns_zero le_rfl).mono (h refund hdue)

lemma ite {c : Prop} [Decidable c] {p' : MachineM ε FrameNotes α} (hp : Earning features due p)
    (hp' : Earning features due p') : Earning features due (if c then p else p') := by
  split
  · exact hp
  · exact hp'

lemma get_bind {q : Machine FrameNotes → MachineM ε FrameNotes β}
    (hq : ∀ m : Machine FrameNotes, m.features = features → Earning features due' (q m)) :
    Earning features due' (get >>= q) :=
  fun m hfeatures hw => .get_bind (hq m hfeatures m hfeatures hw)

/-- Before the program no slot may be written. -/
lemma after (hp : ∀ m : Machine FrameNotes, Keeps m.Spares p)
    (hq : ∀ a, Earning features due' (q a)) : Earning features due' (p >>= q) := by
  intro m hfeatures hw
  refine .bind (.of_end (hp m m (.refl m)) fun _ => Spares.persists) fun a m₁ h₁ hspares => ?_
  obtain ⟨hpersists, hearns⟩ := hq a m₁ (h₁.features_eq.trans hfeatures) (h₁.truthful hw)
  refine ⟨h₁.trans hpersists, fun b m' hrun refund hdue => ?_⟩
  exact ((hspares.earns hw).trans (hearns b m' hrun refund hdue)).mono (zero_add refund).le

/-- Nor after it, and no more may be due in the end. -/
lemma before (hp : Earning features due p) (hq : ∀ a (m : Machine FrameNotes),
      Ends m.Spares (fun b _ =>
        ∀ refund', due' b = some refund' → ∃ refund ≤ refund', due a = some refund) (q a) m) :
    Earning features due' (p >>= q) := by
  intro m hfeatures hw
  refine .bind (hp m hfeatures hw) fun a m₁ h₁ hearns => ?_
  obtain ⟨hspares, hdue⟩ := hq a m₁
  refine ⟨h₁.trans hspares.persists, fun b m' hrun refund' hb => ?_⟩
  obtain ⟨refund, hle, ha⟩ := hdue b m' hrun refund' hb
  have hrest : m₁.context.world.Earns features m'.context.world 0 := by
    rw [hrun] at hspares
    exact hspares.earns (h₁.truthful hw)
  exact ((hearns refund ha).trans hrest).mono ((add_zero refund).le.trans hle)

/-- A checkpoint takes back what a program cleared together with the refund for it. -/
lemma guarded {ofCache : CacheError → ε} {o : α → Outcome}
    (hp : Earning features (fun a => (o a).refund?) p) :
    Earning features (fun a => some (o a).refund)
      (guarded ofCache (fun a => (o a).isOk) p) := by
  intro m hfeatures hw
  obtain ⟨hpersists, hearns⟩ := hp m.opened hfeatures ⟨hw.incarnations, hw.storage⟩
  rcases hrun : p.run m.opened with ⟨r, m'⟩
  rw [hrun] at hpersists
  have hcontext : m.context.checkpoint.Continues m'.context := hpersists.context
  obtain ⟨hcontinues, hagrees⟩ := hcontext.abandon
  obtain ⟨committed, hcommit, hcontinues', hagrees'⟩ := hcontext.commit
  refine .of_run (guarded_eq ofCache _ hrun hcommit) ?_ fun a ha refund hdue => ?_
  · cases isKept (fun a => (o a).isOk) r with
    | false =>
      exact ⟨hcontinues, ⟨hcontinues.world, hagrees.world.incarnations⟩, hpersists.begun,
        hpersists.earned⟩
    | true =>
      exact ⟨hcontinues', ⟨hcontinues'.world,
        hagrees'.world.incarnations.trans hpersists.incarnations.dirty⟩, hpersists.begun,
        hpersists.earned⟩
  · obtain rfl : (o a).refund = refund := Option.some.inj hdue
    subst ha
    have hkept : isKept (fun a => (o a).isOk) (.ok a : Except ε α) = (o a).isOk := rfl
    rw [hkept]
    by_cases hok : (o a).isOk = true
    · have hdue : (o a).refund? = some (o a).gas.refunded := if_pos hok
      have hinside := hearns a m' hrun (o a).gas.refunded hdue
      have hworld := (Context.commit_eq_ok hcommit).1
      rw [if_pos hok, Outcome.refund, hdue, Option.getD_some]
      unfold World.Earns at hinside ⊢
      change _ * (_ - (m.context.world.checkpoint.cleared : Int)) ≤ _ at hinside
      rw [World.cleared_checkpoint] at hinside
      rw [World.cleared_committed hworld]
      exact hinside
    · have hdue : (o a).refund? = none := if_neg hok
      rw [if_neg hok, Outcome.refund, hdue, Option.getD_none]
      have hsame := World.SameSlots.of_same hcontinues.world hagrees.world
      exact World.earns_zero (hsame.cleared_le hw)

end Earning

end

/-! ## The machine as a host -/

/-- What a read gives was there from the start. -/
lemma ends_attempt_read {α : Type} {op : WorldM α} {r : World → Except StateError α}
    (hop : ∀ w, ∃ w', op.run w = (r w, w') ∧ w.Refreshed w') (h : m.Spares m')
    (hr : Fades (r m.context.world) (r m'.context.world)) :
    HostM.Ends (m.Persists features) (fun a m'' => m.Spares m'' ∧ r m.context.world = .ok a)
      (attempt op) m' := by
  have hspares := keeps_attempt (robust_spares m).stable
    (keeps_onRead (robust_spares m).stable (World.Reading.of_run hop)) m' h
  refine ⟨hspares.persists, fun a m'' hrun => ?_⟩
  rw [hrun] at hspares
  obtain ⟨world, hread, rfl⟩ := attempt_run_some hrun
  obtain ⟨w', hread', -⟩ := hop m'.context.world
  exact ⟨hspares, hr a (Prod.mk.inj (hread'.symm.trans hread)).1⟩

/-- A storage write earns the refund that its frame gets for it. -/
lemma ends_storeSlot (features : Features) (hw : m.context.world.Truthful) (a : Address)
    (index value : Word) :
    HostM.Ends (m.Persists features) (fun write m' =>
        m.context.world.Earns features m'.context.world (Gas.slotRefund features write.value))
      (storeSlot a index value) m := by
  refine .bind (.of_end (keeps_accessSlot (robust_spares m).stable _ m (.refl m))
    fun _ => Spares.persists) fun isCold m₁ _ h₁ => ?_
  refine .bind (ends_attempt_read (World.slot_run · a index) h₁
    (h₁.slots.readSlot_fades hw fun _ _ => by rw [h₁.slots.slots])) fun present m₂ _ h₂ => ?_
  obtain ⟨h₂, hpresent⟩ := h₂
  refine .bind (ends_attempt_read (World.flushedSlot_run · a index) h₂
    (h₂.slots.readFlushedSlot_fades hw a index)) fun initial m₃ hpersists h₃ => ?_
  obtain ⟨h₃, hinitial⟩ := h₃
  have hends : HostM.Ends (m.Persists features) (fun _ m' => m.context.world.Earns features
      m'.context.world (Gas.slotRefund features { initial, present, new := value }))
      (attempt (World.setSlot a index value)) m₃ := by
    refine ⟨keeps_attempt (robust_persists m).stable (fun m' hm => ?_) m₃ hpersists, ?_⟩
    · have hset := World.sameIncarnations_setSlot m'.context.world a index value
      exact ⟨hm.context.trans ⟨rfl, hset.continues, .refl _⟩, hm.incarnations.trans hset, hm.begun,
        hm.earned⟩
    · intro _ m' hrun
      obtain ⟨world, hwrite, rfl⟩ := attempt_run_some hrun
      exact World.earns_setSlot hw h₃.slots hinitial hpresent hwrite
  exact .bind hends fun _ m₄ h₄ hearns => ⟨h₄, fun _ _ hrun => by cases hrun; exact hearns⟩

/-- Running a message earns the refund that counts of its frame. -/
def RunEarns (features : Features) (run : Message → MachineM StateError FrameNotes FrameResult) :
    Prop :=
  ∀ message, Earning features (fun result => some result.outcome.refund) (run message)

/-- The machine once a frame was noted to be entered. -/
def enters (m : Machine FrameNotes) : Machine FrameNotes :=
  { m with observer := m.observer.begin m.context.world }

/-- The machine once a frame was noted to be left. -/
def leaves (m : Machine FrameNotes) (o : Outcome) : Machine FrameNotes :=
  { m with observer := m.observer.finish fun entered => ⟨entered, m.context.world, o⟩ }

/-- A frame below another one, noted. -/
def notedChild (run : Message → MachineM StateError FrameNotes FrameResult) (message : Message)
    (m : Machine FrameNotes) : FrameResult × Machine FrameNotes :=
  ((runChild run message m.enters).1,
    (runChild run message m.enters).2.leaves (runChild run message m.enters).1.outcome)

/-- The frame has persisted, and its refund covers what was cleared since it started. -/
structure Covered (features : Features) (m₀ : Machine FrameNotes) (x : Frame × Machine FrameNotes) :
    Prop where
  persists : m₀.Persists features x.2
  active : x.1.features = features
  earns : m₀.context.world.Earns features x.2.context.world x.1.gas.refunded

section

variable {run : Message → MachineM StateError FrameNotes FrameResult} {f : Frame}

lemma Persists.left {o : Outcome} (h : m.enters.Persists features m')
    (ho : FrameNote.Earned features ⟨m.context.world, m'.context.world, o⟩) :
    m.Persists features (m'.leaves o) := by
  have hbegun : m'.observer.begun = m.context.world :: m.observer.begun := h.begun
  unfold leaves
  rw [Notes.finish_of_begun hbegun]
  refine ⟨h.context, h.incarnations, rfl, fun note hmem => ?_⟩
  cases hmem with
  | head => exact .inr ho
  | tail _ hmem => exact h.earned note hmem

/-- A frame that gets back from a frame below what that has earned stays covered. -/
lemma Covered.returned {o : Outcome} (h : Covered features m₀ (f, m))
    (hpersists : m.enters.Persists features m')
    (hearns : m.context.world.Earns features m'.context.world o.refund) :
    Host.Returned (Covered features m₀) (fun x => m₀.Persists features x.2) f o (m'.leaves o) := by
  have habort : m₀.Persists features (m'.leaves o) :=
    h.persists.trans (hpersists.left fun ho => Outcome.refund_of_isOk ho ▸ hearns)
  refine ⟨habort, fun ho => ⟨habort, h.active, ?_⟩, fun ho _ => ⟨habort, h.active, ?_⟩⟩
  · exact h.earns.trans (Outcome.refund_of_isOk ho ▸ hearns)
  · exact (h.earns.trans (Outcome.refund_of_failed ho ▸ hearns)).mono (add_zero _).le

lemma returned_notedChild (hrun : RunEarns features run) (hw : m.context.world.Truthful)
    (hfeatures : m.features = features) (h : Covered features m₀ (f, m)) (message : Message) :
    Host.Returned (Covered features m₀) (fun x => m₀.Persists features x.2) f
      (notedChild run message m).1.outcome (notedChild run message m).2 := by
  obtain ⟨hpersists, hearns⟩ := hrun message m.enters hfeatures hw
  unfold notedChild runChild
  rcases hr : (run message).run m.enters with ⟨e | result, m'⟩ <;> rw [hr] at hpersists
  · have hparked : m.enters.Persists features (m'.park e) :=
      (robust_persists m.enters).parked
        ((robust_persists m.enters).report (e := .stateFailed e) nofun hpersists)
    have hfatal : Outcome.isOk (.halt .fatal message.gasLimit) = false := rfl
    refine ⟨h.persists.trans (hparked.left fun ho => ?_), nofun, nofun⟩
    rw [hfatal] at ho
    cases ho
  · exact h.returned ((robust_persists m.enters).substate hpersists) (hearns result m' hr _ rfl)

lemma call_frames (request : CallRequest) (m : Machine FrameNotes) :
    call .frames run request m =
      (⟨(notedChild run (m.handDown (.ofCall request (m.depth + 1))) m).1.outcome, request.out⟩,
        (notedChild run (m.handDown (.ofCall request (m.depth + 1))) m).2) := rfl

lemma create_frames (request : CreateRequest) (m : Machine FrameNotes) :
    create .frames run request m =
      (⟨(notedChild run (m.handDown (.ofCreate request (m.depth + 1))) m).1.outcome,
          (notedChild run (m.handDown (.ofCreate request (m.depth + 1))) m).1.address?⟩,
        (notedChild run (m.handDown (.ofCreate request (m.depth + 1))) m).2) := rfl

variable (hw : m₀.context.world.Truthful)

include hw

lemma Covered.spared (h : Covered features m₀ (f, m)) (hs : m.Spares m') :
    Covered features m₀ (f, m') :=
  ⟨h.persists.trans hs.persists, h.active,
    (h.earns.trans (hs.earns (h.persists.truthful hw))).mono (add_zero _).le⟩

/-- What the host answers without writing a slot keeps a frame covered. -/
lemma Covered.answered {α : Type} {op : HostM (Machine FrameNotes) α}
    (h : Covered features m₀ (f, m)) (hop : HostM.Keeps m.Spares op) :
    Host.Answered (Covered features m₀) (fun x => m₀.Persists features x.2) f (op.run m) := by
  have hspares := hop m (.refl m)
  rcases hrun : op.run m with ⟨_ | a, m'⟩ <;> rw [hrun] at hspares
  · exact (h.spared hw hspares).persists
  · exact h.spared hw hspares

variable [Ledger] (hfeatures : m₀.features = features) (hrun : RunEarns features run)

include hfeatures hrun

/-- Whatever a frame does, its refund covers what was cleared since it started, unless it is
aborted. -/
lemma upholds_covered :
    (host .frames run).Upholds (Covered features m₀) (fun x => m₀.Persists features x.2) where
  abort h := h.persists
  stays hf h :=
    ⟨h.persists, (congrArg Invocation.features hf.invocation).trans h.active,
      h.earns.mono hf.refunded⟩
  staysAborted _ h := h
  presence a h := h.answered hw (keeps_presence (robust_spares _).stable a)
  balance a h := h.answered hw (keeps_balance (robust_spares _).stable a)
  code a h := h.answered hw (keeps_code (robust_spares _).stable a)
  codeHash a h := h.answered hw (keeps_codeHash (robust_spares _).stable a)
  loadSlot a index h := h.answered hw (keeps_loadSlot (robust_spares _).stable a index)
  storeSlot {f m} a index value h := by
    obtain ⟨hpersists, hearns⟩ := ends_storeSlot features (h.persists.truthful hw) a index value
    rcases hr : ((host .frames run).storeSlot a index value).run m with ⟨_ | write, m'⟩ <;>
      change (storeSlot a index value).run m = _ at hr <;> rw [hr] at hpersists
    · exact h.persists.trans hpersists
    · have hpersists' := h.persists.trans hpersists
      exact ⟨hpersists', hpersists', h.active, h.active ▸ h.earns.trans (hearns write m' hr)⟩
  loadTransient _ _ h := h
  storeTransient a index value h := h.spared hw
    ((robust_spares _).journal (.refl _) (Journal.continues_tstore _ _ value))
  log entry h := h.spared hw ((robust_spares _).substate (.refl _))
  selfDestruct a beneficiary h := h.answered hw
    (keeps_selfDestruct (robust_spares _) fun _ _ hm => hm)
  create request h := by
    change Host.Returned _ _ _ (create .frames run request _).1.outcome _
    rw [create_frames]
    exact returned_notedChild hrun (h.persists.truthful hw) (h.persists.features_eq.trans hfeatures)
      h _
  call request h := by
    change Host.Returned _ _ _ (call .frames run request _).1.outcome _
    rw [call_frames]
    exact returned_notedChild hrun (h.persists.truthful hw) (h.persists.features_eq.trans hfeatures)
      h _

/-! ## Frames -/

omit hfeatures hw in
/-- The frame of some code earns its refund, until it is aborted or its checkpoint is reverted. -/
lemma earning_runFrame (hf : f.features = features) (hzero : f.gas.refunded = 0) :
    Earning features Outcome.refund? (runFrame .frames run f) := by
  intro m hfeatures hw
  have hcovered : Covered features m (f, m) :=
    ⟨.refl m, hf, (World.earns_zero le_rfl).mono hzero.ge⟩
  obtain ⟨hpersists, hok⟩ := (upholds_covered hw hfeatures hrun).run
    (fun _ _ _ _ h => ⟨h.persists, h.active, h.earns⟩)
    ⟨fun h => h, fun _ _ => rfl, fun h => h, fun h => h⟩ hcovered
  have hrunFrame : (runFrame .frames run f).run m = unparked ((host .frames run).run f m) := rfl
  rcases hr : (host .frames run).run f m with ⟨f', m'⟩
  rw [hr] at hpersists hok hrunFrame
  unfold unparked at hrunFrame
  dsimp only at hrunFrame
  split at hrunFrame
  · exact .of_run hrunFrame ((robust_persists m).parked hpersists) nofun
  · refine .of_run hrunFrame hpersists fun o ho refund hdue => ?_
    obtain rfl : f'.outcome = o := Except.ok.inj ho
    obtain ⟨hstatus, rfl⟩ := Frame.refund?_outcome hdue
    exact (hok hstatus).earns

omit hw hfeatures

omit [Ledger] hrun in
lemma earning_runPrecompile (p : Precompile) (message : Message) :
    Earning features (fun result => result.outcome.refund?)
      (runPrecompile p message : MachineM StateError FrameNotes FrameResult) := by
  have hzero (result : Except Precompile.Error Precompile.Output) :
      (precompileOutcome message.gasLimit result).gas.refunded = 0 := by
    unfold precompileOutcome
    split
    · rfl
    · split
      · rename_i hpay
        obtain ⟨-, rfl⟩ := Gas.Meter.pay?_eq_some hpay
        rfl
      · rfl
  have hdue (result : Except Precompile.Error Precompile.Output) (refund : Int)
      (h : (precompileOutcome message.gasLimit result).refund? = some refund) : 0 ≤ refund := by
    obtain ⟨-, rfl⟩ := Outcome.refund?_eq_some h
    exact (hzero result).ge
  refine .get_bind fun m _ => ?_
  dsimp only
  split
  · exact .after (fun m => keeps_report (robust_spares m).stable nofun) fun _ => .pure (hdue _)
  · exact .pure (hdue _)

lemma earning_runCalled (message : Message) (target : Address) :
    Earning features (fun result => result.outcome.refund?)
      (runCalled .frames run message target) := by
  refine .get_bind fun m hm => ?_
  dsimp only
  split
  · exact earning_runPrecompile _ message
  · refine .after (fun m => keeps_calledCode (robust_spares m).stable message) fun code => ?_
    refine .ite (.pure fun refund hdue => ?_) (.before (earning_runFrame hrun hm rfl) fun o m =>
      .pure (.refl m) fun refund hdue => ⟨refund, le_rfl, hdue⟩)
    obtain ⟨-, rfl⟩ := Outcome.refund?_eq_some hdue
    exact le_rfl

lemma earning_callBody (message : Message) (target : Address) :
    Earning features (fun result => result.outcome.refund?) (callBody .frames run message target) :=
  .ite (.after (fun m => keeps_transfer (robust_spares m) _ _ _) fun _ =>
    earning_runCalled hrun message target) (earning_runCalled hrun message target)

omit [Ledger] hrun in
/-- Deploying code leaves the refund of the init code as it is. -/
lemma deploy_persists (a : Address) {o : Outcome} (ho : o.isOk = true) (m : Machine FrameNotes) :
    Ends m.Spares (fun result _ => ∀ refund', result.outcome.refund? = some refund' →
      ∃ refund ≤ refund', o.refund? = some refund)
      (deploy a o : MachineM StateError FrameNotes FrameResult) m := by
  have hdue (features : Features) (limit : Nat) (refund' : Int)
      (h : (deployment features limit o).refund? = some refund') :
      ∃ refund ≤ refund', o.refund? = some refund := by
    obtain ⟨hok, rfl⟩ := Outcome.refund?_eq_some h
    refine ⟨_, le_rfl, ?_⟩
    rw [Outcome.refund?, if_pos ho]
    unfold deployment at hok ⊢
    split at hok
    · cases hok
    · rw [if_neg ‹_›]
      split at hok
      · cases hok
      · rw [if_neg ‹_›]
        split at hok
        · rename_i hpay
          obtain ⟨-, rfl⟩ := Gas.Meter.pay?_eq_some hpay
          rfl
        · split at hok
          · cases hok
          · rw [if_neg ‹_›]
  refine .get_bind (.ite (fun _ => ?_) fun _ => .pure (.refl m) (hdue _ _))
  have hinstall (output : Bytes) :
      Keeps m.Spares (onWorld (install a output) : MachineM StateError FrameNotes Unit) :=
    (robust_spares m).onWorld fun _ => keeps_install a output
  exact .bind (.of_keeps (hinstall _) (.refl m)) fun _ m' h _ => .pure h (hdue _ _)

lemma earning_construct (message : Message) (a : Address) :
    Earning features (fun result => result.outcome.refund?) (construct .frames run message a) := by
  refine .after (fun m => keeps_isTaken (robust_spares m).stable a) fun _ => .ite ?_ ?_
  · exact .after (fun m => keeps_report (robust_spares m).stable nofun) fun _ => .pure nofun
  · refine .after (fun m => keeps_prepareAccount (robust_spares m) message a) fun _ =>
      .get_bind fun m hm => .before (earning_runFrame hrun hm rfl) fun o m =>
        .ite (fun hok => deploy_persists a hok m) fun _ => ?_
    exact .pure (.refl m) fun refund hdue => ⟨refund, le_rfl, hdue⟩

lemma earning_frame (message : Message) :
    Earning features (fun result => some result.outcome.refund) (frame .frames run message) := by
  have hidle (status : Status) : Earning features (fun result => some result.outcome.refund)
      (return { outcome := .idle status message.gasLimit } :
        MachineM StateError FrameNotes FrameResult) :=
    .pure fun refund hdue => (Option.some.inj hdue ▸ (Outcome.refund_idle _ _).ge)
  unfold frame
  split
  · exact .ite (hidle _) <|
      .after (fun m => keeps_lacksFunds (robust_spares m).stable message) fun _ =>
        .ite (hidle _) (.guarded (o := FrameResult.outcome) (earning_callBody hrun message _))
  · refine .ite (hidle _) <|
      .after
        (fun m => keeps_onRead (robust_spares m).stable (World.reading_accountOrEmpty _)) fun _ =>
        .ite (hidle _) <| .ite (hidle _) <|
          .after (fun m => (robust_spares m).onWorld fun _ =>
            World.keeps_sameSlots_putAccount _ _) fun _ =>
          .after (fun m => keeps_onJournal (robust_spares m).stable fun j =>
            j.notes_access _) fun _ =>
          .guarded (o := FrameResult.outcome) (earning_construct hrun message _)

/-! ## Messages -/

lemma runEarns_executeWith : RunEarns features (executeWith .frames run) := by
  intro message m hfeatures hw
  obtain ⟨hpersists, hearns⟩ := earning_frame hrun message (m.entered message) hfeatures hw
  have hrun := executeWith_run .frames run message m
  rcases hr : (frame .frames run message).run (m.entered message) with ⟨e | result, m'⟩ <;>
    rw [hr] at hpersists hrun <;>
    obtain ⟨⟨henv, hworld, hjournal⟩, hincarnations, hbegun, hearned⟩ := hpersists
  · exact .of_run hrun ⟨⟨henv, hworld, hjournal⟩, hincarnations, hbegun, hearned⟩ nofun
  · refine .of_run hrun ⟨⟨henv, hworld, hjournal⟩, hincarnations, hbegun, hearned⟩
      fun result' hresult refund hdue => ?_
    obtain rfl := Except.ok.inj hresult
    dsimp only at hdue
    rw [FrameResult.outcome_withSubstate] at hdue
    exact hearns result m' hr refund hdue

omit hrun in
lemma runEarns_executeWithin (levels : Nat) : RunEarns features (executeWithin .frames levels) := by
  induction levels with
  | zero =>
    exact runEarns_executeWith fun message =>
      .pure fun refund hdue => (Option.some.inj hdue ▸ (Outcome.refund_idle _ _).ge)
  | succ levels ih => exact runEarns_executeWith ih

omit hrun in
/-- The refund of a message that succeeds covers the slots that were cleared in it, and so do the
refunds of all messages below. -/
lemma runEarns_execute : RunEarns features (execute .frames) :=
  fun message => runEarns_executeWithin _ message

end

/-! ## Transactions -/

section

variable [Ledger] {ι : Type}

/-- What a transaction does before its message runs writes no slot. -/
lemma keeps_sameSlots_admission (env : Env) (c₀ : Context) :
    Keeps (fun m => m.context.env = c₀.env ∧ c₀.world.SameSlots m.context.world)
      (admission env : MachineM Failure ι Unit) := by
  have honWorld {α : Type} {op : WorldM α} (h : Keeps c₀.world.SameSlots op) :
      Keeps (fun c => c.env = c₀.env ∧ c₀.world.SameSlots c.world) (Context.onWorld op) :=
    fun c hc => ⟨hc.1, h c.world hc.2⟩
  have hcharge : Keeps (fun c => c.env = c₀.env ∧ c₀.world.SameSlots c.world)
      Settlement.chargeSender :=
    .bind .get fun _ => .bind (honWorld (World.reading_accountOrEmpty _).keeps_sameSlots) fun _ =>
      .bind (honWorld (keeps_withdraw _ _)) fun _ =>
        .bind (honWorld (World.keeps_sameSlots_putAccount _ _)) fun _ => .modify fun _ hc => hc
  exact .bind (keeps_onState fun m hm =>
      ⟨hm.1, (World.reading_accountOrEmpty _).keeps_sameSlots m.context.world hm.2⟩) fun _ =>
    .bind (keeps_require _) fun _ => .bind (fun _ hm => hm) fun _ =>
      keeps_onState fun m hm => hcharge m.context hm

variable {m m₀ m₁ : Machine Unit} {tx : Transaction} {frame : FrameResult}

/-- When the outermost frame of a transaction is entered, no slot has been cleared. -/
lemma Settling.cleared_entered (hsettled : m.context.world.Settled)
    (hworld : m.context.world.Truthful) (h : Settling .silent tx m m₀ m₁ frame) :
    m₀.features = m.features ∧ m₀.context.world.Truthful ∧ m₀.context.world.cleared = 0 := by
  have hadmitted := keeps_sameSlots_admission (m.withTransaction tx).context.env
    (m.withTransaction tx).opened.context (m.withTransaction tx).opened ⟨rfl, .refl _⟩
  rw [h.admitted] at hadmitted
  obtain ⟨henv, hslots⟩ := hadmitted
  have hopened : m.context.world.checkpoint.Truthful := ⟨hworld.incarnations, hworld.storage⟩
  refine ⟨(congrArg Env.features henv).trans rfl, hslots.truthful hopened, Nat.le_zero.1 ?_⟩
  refine (hslots.cleared_le hopened).trans ?_
  change m.context.world.checkpoint.cleared ≤ 0
  rw [World.cleared_checkpoint, World.cleared_eq_zero hsettled.storage hsettled.incarnations]

/-- A transaction that gives a receipt has reached its settlement, and the receipt is that of its
outermost frame. -/
lemma settling_of_ok {i : Inspector ι} {m m' : Machine ι} {receipt : Receipt}
    (h : (transact i tx).run m = (.ok receipt, m')) : ∃ m₀ m₁ frame, Settling i tx m m₀ m₁ frame ∧
      receipt.result =
        .ofFrame frame (.ofTransaction m.features tx.gasLimit frame.outcome) tx.isCreate := by
  rw [transact_run] at h
  rcases hrun : (runTransaction i).run (m.withTransaction tx) with ⟨e | receipt', m₂⟩ <;>
    rw [hrun] at h
  · cases h
  obtain rfl : receipt' = receipt := Except.ok.inj (congrArg Prod.fst h)
  unfold runTransaction at hrun
  rw [Program.run_bind_ok (Program.run_get _)] at hrun
  obtain ⟨⟨⟩, m₃, hrequired, hrest⟩ := Program.run_bind_eq_ok hrun
  obtain ⟨hblock, rfl⟩ := require_eq_ok hrequired
  obtain ⟨intrinsicGas, m₃, hintrinsic, hrest⟩ := Program.run_bind_eq_ok hrest
  obtain ⟨hintrinsic, rfl⟩ := require_eq_ok hintrinsic
  obtain ⟨⟨frame, gas, cleaned⟩, m₃, hguarded, hwrite⟩ := Program.run_bind_eq_ok hrest
  obtain ⟨changes, m₄, -, hreport⟩ := Program.run_bind_eq_ok hwrite
  obtain ⟨m₅, hsettle⟩ := guarded_eq_ok hguarded
  unfold Env.checkIntrinsicGas at hintrinsic
  split at hintrinsic
  · cases hintrinsic
  rename_i hfits
  cases hintrinsic
  rw [settle_eq, Program.run_bind_ok (Program.run_get _)] at hsettle
  obtain ⟨_, m₀, hadmitted, hsettle⟩ := Program.run_bind_eq_ok hsettle
  obtain ⟨frame', m₁, hexecuted, hconclude⟩ := Program.run_bind_eq_ok hsettle
  refine ⟨m₀, m₁, frame', ⟨hblock, Nat.le_of_not_lt hfits, hadmitted, onState_eq_ok hexecuted⟩, ?_⟩
  unfold conclude at hconclude
  obtain ⟨_, _, -, hconclude⟩ := Program.run_bind_eq_ok hconclude
  obtain ⟨_, _, -, hconclude⟩ := Program.run_bind_eq_ok hconclude
  obtain ⟨_, _, -, hconclude⟩ := Program.run_bind_eq_ok hconclude
  obtain ⟨_, _, -, hconclude⟩ := Program.run_bind_eq_ok hconclude
  cases hconclude
  cases hreport
  rfl

/-- Where nothing is pending, the outermost frame of a transaction is refunded no less than nothing
if it succeeds. Every frame that succeeds is refunded what the slots are worth that were cleared in
it, or more. -/
theorem transact_earns (tx : Transaction) (hworld : m.context.world.Truthful)
    (hsettled : m.context.world.Settled) :
    (∀ receipt m', (transact .silent tx).run m = (.ok receipt, m') →
      ∃ m₀ m₁ frame, Settling .silent tx m m₀ m₁ frame ∧ receipt.result =
        .ofFrame frame (.ofTransaction m.features tx.gasLimit frame.outcome) tx.isCreate) ∧
    ∀ m₀ m₁ frame, Settling .silent tx m m₀ m₁ frame →
      (∃ notes,
        Settling .frames tx (m.observedBy {}) (m₀.observedBy {}) (m₁.observedBy notes) frame ∧
        notes.begun = [] ∧ ∀ note ∈ notes.ended, note.Earned m.features) ∧
      (frame.outcome.isOk = true → 0 ≤ frame.outcome.gas.refunded ∧
        m₀.context.world.Earns m.features m₁.context.world frame.outcome.gas.refunded) := by
  refine ⟨fun receipt m' hrun => settling_of_ok hrun, fun m₀ m₁ frame h => ?_⟩
  obtain ⟨notes, hnoted⟩ := h.observedBy Inspector.alike_frames {} trivial
  obtain ⟨hfeatures, htruthful, hcleared⟩ := h.cleared_entered hsettled hworld
  obtain ⟨hpersists, hearns⟩ : Ends ((m₀.observedBy ({} : FrameNotes)).Persists m.features) _
    (execute .frames _) _ := runEarns_execute _ (m₀.observedBy {}) hfeatures htruthful
  have hexecuted := hnoted.executed
  rw [hexecuted] at hpersists
  refine ⟨⟨notes, hnoted, hpersists.begun, fun note hmem => ?_⟩, fun hok => ?_⟩
  · exact (hpersists.earned note hmem).resolve_left List.not_mem_nil
  · have hearned := hearns frame _ hexecuted _ rfl
    rw [Outcome.refund_of_isOk hok] at hearned
    refine ⟨?_, hearned⟩
    have hnonneg : 0 ≤ Gas.clearRefund m.features * (m₁.context.world.cleared : Int) :=
      mul_nonneg (Gas.clearRefund_nonneg _) (Int.natCast_nonneg _)
    refine hnonneg.trans ?_
    unfold World.Earns at hearned
    change _ * (_ - (m₀.context.world.cleared : Int)) ≤ _ at hearned
    rwa [hcleared, Nat.cast_zero, sub_zero] at hearned

end

/-- Whether a transaction reaches its settlement, and what its outermost frame comes to, can be
computed. -/
lemma Settling.of_eval [Ledger] (tx : Transaction) (m : Machine Unit) (P : FrameResult → Bool)
    (hblock : (m.withTransaction tx).context.env.checkBlock = .ok ())
    (hgas : (m.withTransaction tx).context.env.intrinsicGas ≤ tx.gasLimit)
    (hrun : let env := (m.withTransaction tx).context.env
      let start := (admission env).run (m.withTransaction tx).opened
      (start.1.toBool && ((execute .silent (Message.ofTransaction tx
        (tx.gasLimit - env.intrinsicGas))).run start.2).1.toOption.any P) = true) :
    ∃ m₀ m₁ frame, Settling .silent tx m m₀ m₁ frame ∧ P frame = true := by
  dsimp only at hrun
  rcases hadmission :
      (admission (m.withTransaction tx).context.env).run (m.withTransaction tx).opened
    with ⟨e | ⟨⟩, m₀⟩ <;> rw [hadmission] at hrun
  · cases hrun
  dsimp only at hrun
  rcases hexecute : (execute .silent (Message.ofTransaction tx
      (tx.gasLimit - (m.withTransaction tx).context.env.intrinsicGas))).run m₀
    with ⟨e | frame, m₁⟩ <;> rw [hexecute] at hrun
  · cases hrun
  · exact ⟨m₀, m₁, frame, ⟨hblock, hgas, hadmission, hexecute⟩, hrun⟩

/-- A machine with two contracts: that of 0x200 clears the slot 0 if it is set, and sets it
otherwise; that of 0x100 calls it twice. -/
def toggling : Machine Unit :=
  let callTwice := Code.ofHashed
    #[0x5f, 0x5f, 0x5f, 0x5f, 0x5f, 0x61, 0x02, 0x00, 0x5a, 0xf1,
      0x5f, 0x5f, 0x5f, 0x5f, 0x5f, 0x61, 0x02, 0x00, 0x5a, 0xf1] 7
  let toggle := Code.ofHashed #[0x5f, 0x54, 0x15, 0x5f, 0x55] 8
  let requests : List World.Request := [.putAccount 1 { balance := 1000000 },
    .putAccount 0x100 { codeHash := 7 }, .putAccount 0x200 { codeHash := 8 }, .putCode callTwice,
    .putCode toggle, .setSlot 0x200 0 1, .flush]
  start (.ofWorld {} (World.serveAll requests (.ofStore {} .ordered)).2) ()

/-- The account 1 calls the contract of 0x100. -/
def visiting : Transaction := { caller := 1, to? := some 0x100, gasLimit := 60000, gasPrice := 1 }

/-- The second frame below takes back what the first one was refunded for clearing the slot. -/
theorem transact_earns_toggling :
    ∃ m₀ m₁ frame, Settling .silent visiting toggling m₀ m₁ frame ∧
      frame.outcome.gas.refunded = 2800 ∧ 0 ≤ frame.outcome.gas.refunded ∧
      ∃ notes, Settling .frames visiting (toggling.observedBy {}) (m₀.observedBy {})
        (m₁.observedBy notes) frame ∧ ∀ note ∈ notes.ended, note.Earned toggling.features := by
  have hreachable : toggling.context.world.Reachable := ⟨∅, .ordered, _, by decide, rfl⟩
  have hsettled : toggling.context.world.Settled := by
    constructor <;> exact Std.ExtTreeMap.isEmpty_iff.1 (by decide +kernel)
  obtain ⟨m₀, m₁, frame, hsettling, hframe⟩ := Settling.of_eval visiting toggling
    (fun frame => frame.outcome.isOk && frame.outcome.gas.refunded == 2800)
    (by decide +kernel) (by decide +kernel) (by decide +kernel)
  obtain ⟨hok, hrefund⟩ := Bool.and_eq_true_iff.1 hframe
  have hearns := transact_earns visiting hreachable.refetchable.truthful hsettled
  obtain ⟨⟨notes, hnoted, -, hearned⟩, hframe⟩ := hearns.2 m₀ m₁ frame hsettling
  exact ⟨m₀, m₁, frame, hsettling, eq_of_beq hrefund, (hframe hok).1, notes, hnoted, hearned⟩

/-- A machine whose store has refused a batch: the clean layer, which has room for one slot, knows
the slot 0 as cleared, but the store still holds it. The code clears it, reads another slot, and
sets it. -/
def forgetful : Machine Unit :=
  let code := Code.ofHashed
    #[0x5f, 0x5f, 0x55, 0x60, 0x01, 0x54, 0x50, 0x60, 0x05, 0x60, 0x00, 0x55, 0x00] 7
  let setup : List World.Request := [.putAccount 1 { balance := 1000000 },
    .putAccount 0x100 { codeHash := 7 }, .putCode code, .setSlot 0x100 0 7, .flush]
  let world := (World.serveAll setup (.ofStore {} (.recent 1))).2
  let refusing := { world with store := { world.store with faults := { batch := true } } }
  let refused := (World.serveAll [.setSlot 0x100 0 0, .flush] refusing).2
  start (.ofWorld {} { refused with store := { refused.store with faults := {} } }) ()

/-- A clean layer that forgets what the store has refused brings about a refund below nothing. -/
theorem not_earns_forgetful :
    forgetful.context.world.Settled ∧ forgetful.context.world.Closed ∧
    ∃ m₀ m₁ frame, Settling .silent clearance forgetful m₀ m₁ frame ∧
      frame.outcome.isOk = true ∧ frame.outcome.gas.refunded = -4800 := by
  refine ⟨?_, ?_, ?_⟩
  · constructor <;> exact Std.ExtTreeMap.isEmpty_iff.1 (by decide +kernel)
  · constructor <;> decide +kernel
  · obtain ⟨m₀, m₁, frame, hsettling, hframe⟩ := Settling.of_eval clearance forgetful
      (fun frame => frame.outcome.isOk && frame.outcome.gas.refunded == -4800)
      (by decide +kernel) (by decide +kernel) (by decide +kernel)
    obtain ⟨hok, hrefund⟩ := Bool.and_eq_true_iff.1 hframe
    exact ⟨m₀, m₁, frame, hsettling, hok, eq_of_beq hrefund⟩

end Machine

end Evm
