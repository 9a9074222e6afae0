import Evm.Execution.Step
import Evm.Proofs.Invariant

/-!
# Programs of the frame alone

Most instructions ask nothing of the host. `Exec.Local p` says that the program `p` leaves the host
alone, keeps what the frame was called with, gives the frame no gas, and does not halt it only to
have it go on. Gas comes back to a frame only when it settles a call or a creation, which
`Frame.Gains` bounds. Of such programs those that only work on stack, memory and gas are `Work`: where
the frame goes on, its open subroutines and its refund counter stay as well.
-/

namespace Evm

/-! ## Frames -/

/-- The later frame was called with the same, and has got at most so much gas. -/
structure Frame.Gains (gain : Nat) (f f' : Frame) : Prop where
  invocation : f'.toInvocation = f.toInvocation
  limit : f'.gas.limit = f.gas.limit
  remaining : f'.gas.remaining ≤ f.gas.remaining + gain

namespace Frame.Gains

variable {f f' f'' : Frame} {gain gain' : Nat}

lemma refl (f : Frame) : f.Gains 0 f := ⟨rfl, rfl, le_rfl⟩

lemma trans (h : f.Gains gain f') (h' : f'.Gains gain' f'') : f.Gains (gain + gain') f'' where
  invocation := h'.invocation.trans h.invocation
  limit := h'.limit.trans h.limit
  remaining := by
    have hr := h.remaining
    have hr' := h'.remaining
    omega

lemma mono (h : f.Gains gain f') (hle : gain ≤ gain') : f.Gains gain' f' :=
  ⟨h.invocation, h.limit, h.remaining.trans (Nat.add_le_add_left hle _)⟩

end Frame.Gains

/-- The later frame differs by work on its stack and memory and by gas that was paid. -/
structure Frame.Works (f f' : Frame) : Prop where
  gains : f.Gains 0 f'
  pc : f'.pc = f.pc
  returnStack : f'.returnStack = f.returnStack
  refunded : f'.gas.refunded = f.gas.refunded

namespace Frame.Works

variable {f f' f'' : Frame}

lemma refl (f : Frame) : f.Works f := ⟨.refl f, rfl, rfl, rfl⟩

lemma trans (h : f.Works f') (h' : f'.Works f'') : f.Works f'' where
  gains := h.gains.trans h'.gains
  pc := h'.pc.trans h.pc
  returnStack := h'.returnStack.trans h.returnStack
  refunded := h'.refunded.trans h.refunded

end Frame.Works

/-! ## The meter -/

namespace Gas.Meter

variable {m paid : Meter} {cost : Nat}

/-- Paying takes the cost off what remains. -/
lemma pay?_eq_some (h : m.pay? cost = some paid) :
    cost ≤ m.remaining ∧ paid = { m with remaining := m.remaining - cost } := by
  unfold pay? at h
  split at h
  · rename_i hle
    exact ⟨hle, (Option.some.inj h).symm⟩
  · contradiction

lemma expand_limit (m : Meter) (words : Nat) : (m.expand words).1.limit = m.limit := by
  unfold expand pay?
  split
  · rfl
  · dsimp only
    split <;> rename_i hp <;> split at hp <;> cases hp <;> rfl

lemma expand_refunded (m : Meter) (words : Nat) : (m.expand words).1.refunded = m.refunded := by
  unfold expand pay?
  split
  · rfl
  · dsimp only
    split <;> rename_i hp <;> split at hp <;> cases hp <;> rfl

lemma expand_remaining (m : Meter) (words : Nat) :
    (m.expand words).1.remaining ≤ m.remaining := by
  unfold expand pay?
  split
  · exact le_rfl
  · dsimp only
    split <;> rename_i hp <;> split at hp <;> cases hp
    · exact Nat.sub_le _ _
    · exact le_rfl

end Gas.Meter

namespace Exec

variable {σ α β : Type}

/-- Whenever the program halts the frame, the frame does not go on. -/
def Halts (p : Exec σ α) : Prop := ∀ x, (p.run x).1 ≠ .error .running

/-- The program leaves the host alone and gives the frame at most so much gas, however it ends, and
a frame that it halts does not go on. -/
def Yields (gain : Nat) (p : Exec σ α) : Prop :=
  ∀ f s, ∃ f', (p.run (f, s)).2 = (f', s) ∧ f.Gains gain f' ∧ (p.run (f, s)).1 ≠ .error .running

/-- The program leaves the host alone and gives the frame no gas, however it ends, and a frame that
it halts does not go on. -/
abbrev Local (p : Exec σ α) : Prop := Yields 0 p

namespace Yields

variable {p : Exec σ α} {q : α → Exec σ β} {gain gain' : Nat}

lemma bind (hp : Yields gain p) (hq : ∀ a, Yields gain' (q a)) :
    Yields (gain + gain') (p >>= q) := by
  intro f s
  obtain ⟨f', hrun, hf, hhalts⟩ := hp f s
  rw [Program.run_bind]
  split
  · rename_i a x hx
    rw [hx] at hrun
    obtain ⟨f'', hrun', hf', hhalts'⟩ := hq a f' s
    subst hrun
    exact ⟨f'', hrun', hf.trans hf', hhalts'⟩
  · rename_i e x hx
    rw [hx] at hrun hhalts
    exact ⟨f', hrun, hf.mono (Nat.le_add_right _ _), fun he => hhalts (congrArg _ (Except.error.inj he))⟩

lemma after (hp : Local p) (hq : ∀ a, Yields gain (q a)) : Yields gain (p >>= q) :=
  Nat.zero_add gain ▸ bind hp hq

lemma before (hp : Yields gain p) (hq : ∀ a, Local (q a)) : Yields gain (p >>= q) := bind hp hq

lemma update {g : Frame → Frame} (hg : ∀ f : Frame, f.Gains gain (g f)) :
    Yields gain (Exec.update g : Exec σ Unit) := fun f _ => ⟨g f, rfl, hg f, nofun⟩

lemma mono (hp : Local p) : Yields gain p := by
  intro f s
  obtain ⟨f', hrun, hf, hhalts⟩ := hp f s
  exact ⟨f', hrun, hf.mono (Nat.zero_le _), hhalts⟩

lemma halts (hp : Yields gain p) : Halts p := by
  rintro ⟨f, s⟩
  obtain ⟨-, -, -, hhalts⟩ := hp f s
  exact hhalts

lemma ite {c : Prop} [Decidable c] {p p' : Exec σ α} (hp : Yields gain p) (hp' : Yields gain p') :
    Yields gain (if c then p else p') := by
  split
  · exact hp
  · exact hp'

end Yields

/-- What comes after a look at the frame runs with that frame. -/
lemma frame_bind_run (q : Frame → Exec σ β) (f : Frame) (s : σ) :
    (frame >>= q).run (f, s) = (q f).run (f, s) := by
  have hframe : (Exec.frame : Exec σ Frame).run (f, s) = (.ok f, (f, s)) := rfl
  exact Program.run_bind_ok hframe

lemma update_bind_run (g : Frame → Frame) (q : Unit → Exec σ β) (f : Frame) (s : σ) :
    (update g >>= q).run (f, s) = (q ()).run (g f, s) := by
  have hupdate : (update g : Exec σ Unit).run (f, s) = (.ok (), (g f, s)) := rfl
  exact Program.run_bind_ok hupdate

namespace Local

variable {p p' : Exec σ α} {q : α → Exec σ β}

lemma pure (a : α) : Local (Pure.pure a : Exec σ α) := fun f _ => ⟨f, rfl, .refl f, nofun⟩

lemma halt (status : Status) (h : (status == .running) = false) :
    Local (Exec.halt status : Exec σ α) :=
  fun f _ => ⟨f, rfl, .refl f, fun he => beq_eq_false_iff_ne.1 h (Except.error.inj he)⟩

lemma bind (hp : Local p) (hq : ∀ a, Local (q a)) : Local (p >>= q) := Yields.bind hp hq

lemma ite {c : Prop} [Decidable c] (hp : Local p) (hp' : Local p') :
    Local (if c then p else p') :=
  Yields.ite hp hp'

lemma frame : Local (Exec.frame : Exec σ Frame) := fun f _ => ⟨f, rfl, .refl f, nofun⟩

lemma update {g : Frame → Frame} (hg : ∀ f : Frame, f.Gains 0 (g f)) :
    Local (Exec.update g : Exec σ Unit) :=
  Yields.update hg

end Local

/-- The program leaves the host alone and only works on the stack, the memory and the gas of the
frame, and a frame that it halts does not go on. -/
def Work (p : Exec σ α) : Prop :=
  ∀ f s, ∃ f', (p.run (f, s)).2 = (f', s) ∧ f.Works f' ∧ (p.run (f, s)).1 ≠ .error .running

namespace Work

variable {p p' : Exec σ α} {q : α → Exec σ β}

/-- Work is a matter of the frame alone. -/
lemma isLocal (hp : Work p) : Local p := by
  intro f s
  obtain ⟨f', hrun, hf, hhalts⟩ := hp f s
  exact ⟨f', hrun, hf.gains, hhalts⟩

lemma halts (hp : Work p) : Halts p := hp.isLocal.halts

lemma pure (a : α) : Work (Pure.pure a : Exec σ α) := fun f _ => ⟨f, rfl, .refl f, nofun⟩

lemma halt (status : Status) (h : (status == .running) = false) :
    Work (Exec.halt status : Exec σ α) :=
  fun f _ => ⟨f, rfl, .refl f, fun he => beq_eq_false_iff_ne.1 h (Except.error.inj he)⟩

lemma bind (hp : Work p) (hq : ∀ a, Work (q a)) : Work (p >>= q) := by
  intro f s
  obtain ⟨f', hrun, hf, hhalts⟩ := hp f s
  rw [Program.run_bind]
  split
  · rename_i a x hx
    rw [hx] at hrun
    obtain ⟨f'', hrun', hf', hhalts'⟩ := hq a f' s
    subst hrun
    exact ⟨f'', hrun', hf.trans hf', hhalts'⟩
  · rename_i e x hx
    rw [hx] at hrun hhalts
    exact ⟨f', hrun, hf, fun he => hhalts (congrArg _ (Except.error.inj he))⟩

lemma map (hp : Work p) (g : α → β) : Work (g <$> p) := by
  rw [map_eq_pure_bind]
  exact hp.bind fun _ => .pure _

lemma ite {c : Prop} [Decidable c] (hp : Work p) (hp' : Work p') : Work (if c then p else p') := by
  split
  · exact hp
  · exact hp'

lemma frame : Work (Exec.frame : Exec σ Frame) := fun f _ => ⟨f, rfl, .refl f, nofun⟩

lemma update {g : Frame → Frame} (hg : ∀ f : Frame, f.Works (g f)) :
    Work (Exec.update g : Exec σ Unit) := fun f _ => ⟨g f, rfl, hg f, nofun⟩

lemma environment (host : Host σ) : Work (Exec.environment host) :=
  fun f _ => ⟨f, rfl, .refl f, nofun⟩

/-- Reads of the frame may depend on the whole of it. -/
lemma frame_bind {q : Frame → Exec σ β}
    (h : ∀ f s, ∃ f', ((q f).run (f, s)).2 = (f', s) ∧ f.Works f' ∧
      ((q f).run (f, s)).1 ≠ .error .running) :
    Work (Exec.frame >>= q) := by
  intro f s
  rw [frame_bind_run]
  exact h f s

end Work

/-! ## Primitive steps -/

lemma work_active (eip : Eip) : Work (active eip : Exec σ Bool) :=
  .bind .frame fun _ => .pure _

lemma work_pop (n : Nat) : Work (pop n : Exec σ (Vector Word n)) := by
  refine .bind .frame fun f => ?_
  split
  · exact .halt _ rfl
  · exact .bind (.update fun _ => ⟨⟨rfl, rfl, le_rfl⟩, rfl, rfl, rfl⟩) fun _ => .pure _

lemma work_pop1 : Work (pop1 : Exec σ Word) := .bind (work_pop 1) fun _ => .pure _

lemma work_pop2 : Work (pop2 : Exec σ (Word × Word)) := .bind (work_pop 2) fun _ => .pure _

lemma work_pop3 : Work (pop3 : Exec σ (Word × Word × Word)) :=
  .bind (work_pop 3) fun _ => .pure _

lemma work_pop4 : Work (pop4 : Exec σ (Word × Word × Word × Word)) :=
  .bind (work_pop 4) fun _ => .pure _

lemma work_operands (n : Nat) : Work (operands n : Exec σ (Vector Word (n + 1))) := by
  refine .bind .frame fun f => ?_
  split
  · exact .halt _ rfl
  · exact .bind (.update fun _ => ⟨⟨rfl, rfl, le_rfl⟩, rfl, rfl, rfl⟩) fun _ => .pure _

lemma work_operand : Work (operand : Exec σ Word) := .bind (work_operands 0) fun _ => .pure _

lemma work_operands2 : Work (operands2 : Exec σ (Word × Word)) :=
  .bind (work_operands 1) fun _ => .pure _

lemma work_operands3 : Work (operands3 : Exec σ (Word × Word × Word)) :=
  .bind (work_operands 2) fun _ => .pure _

lemma work_push (w : Word) : Work (push w : Exec σ Unit) := by
  refine .bind .frame fun f => ?_
  split
  · exact .halt _ rfl
  · exact .update fun _ => ⟨⟨rfl, rfl, le_rfl⟩, rfl, rfl, rfl⟩

/-- A push puts the word on the stack, or halts the frame as it is. -/
lemma push_run (w : Word) (f : Frame) (s : σ) :
    (push w).run (f, s) =
      match f.stack.push? w with
      | some stack => (.ok (), ({ f with stack }, s))
      | none => (.error .stackOverflow, (f, s)) := by
  unfold push
  rw [frame_bind_run]
  cases f.stack.push? w <;> rfl

lemma work_setTop (w : Word) : Work (setTop w : Exec σ Unit) := .update fun _ => ⟨⟨rfl, rfl, le_rfl⟩, rfl, rfl, rfl⟩

/-- A charge takes the cost off the gas that remains, or halts the frame. -/
lemma charge_run (cost : Nat) (f : Frame) (s : σ) :
    (charge cost).run (f, s) =
      if cost ≤ f.gas.remaining then
        (.ok (), ({ f with gas := { f.gas with remaining := f.gas.remaining - cost } }, s))
      else (.error .outOfGas, (f, s)) := by
  unfold charge
  rw [frame_bind_run]
  cases h : f.gas.pay? cost with
  | none =>
    have hlt : ¬cost ≤ f.gas.remaining := fun hle => by simp [Gas.Meter.pay?, hle] at h
    rw [if_neg hlt]
    rfl
  | some paid =>
    obtain ⟨hle, rfl⟩ := Gas.Meter.pay?_eq_some h
    rw [if_pos hle]
    rfl

lemma work_charge (cost : Nat) : Work (charge cost : Exec σ Unit) := by
  intro f s
  rw [charge_run]
  split
  · exact ⟨_, rfl, ⟨⟨rfl, rfl, Nat.sub_le _ _⟩, rfl, rfl, rfl⟩, nofun⟩
  · exact ⟨f, rfl, .refl f, nofun⟩

lemma work_chargePrice (price : Option Nat) : Work (chargePrice price : Exec σ Unit) := by
  cases price with
  | none => exact .halt _ rfl
  | some cost => exact work_charge cost

lemma work_count (w : Word) (otherwise : Status) (h : (otherwise == .running) = false) :
    Work (count w otherwise : Exec σ Nat) := by
  unfold count
  split
  · exact .halt _ h
  · exact .pure _

lemma work_reserve (start len : Nat) : Work (reserve start len : Exec σ Unit) := by
  refine .frame_bind fun f s => ?_
  have hlimit := f.gas.expand_limit (Count.words (Count.satAdd start len))
  have hremaining := f.gas.expand_remaining (Count.words (Count.satAdd start len))
  have hrefunded := f.gas.expand_refunded (Count.words (Count.satAdd start len))
  split <;> rename_i h <;> rw [h] at hlimit hremaining hrefunded <;>
    exact ⟨_, rfl, ⟨⟨rfl, hlimit, hremaining⟩, rfl, rfl, hrefunded⟩, nofun⟩

lemma work_readMemory (start : Word) (len : Nat) : Work (readMemory start len : Exec σ Bytes) :=
  .ite (.pure _) <| .bind (work_count _ _ rfl) fun _ => .bind (work_reserve _ _) fun _ =>
    .bind .frame fun _ => .pure _

lemma work_copyToMemory (dst srcStart : Word) (len : Nat) (src : Bytes) :
    Work (copyToMemory dst srcStart len src : Exec σ Unit) :=
  .ite
    (.bind (work_count _ _ rfl) fun _ => .bind (work_reserve _ _) fun _ =>
      .update fun _ => ⟨⟨rfl, rfl, le_rfl⟩, rfl, rfl, rfl⟩)
    (.pure _)

/-! ## Instructions -/

lemma work_unary (op : UnaryOp) : Work (unary op : Exec σ Unit) :=
  .bind work_operand fun _ => work_setTop _

lemma work_binary (op : BinaryOp) : Work (binary op : Exec σ Unit) :=
  .bind work_operands2 fun _ => work_setTop _

lemma work_ternary (op : TernaryOp) : Work (ternary op : Exec σ Unit) :=
  .bind work_operands3 fun _ => work_setTop _

lemma work_exp : Work (exp : Exec σ Unit) :=
  .bind work_operands2 fun _ => .bind .frame fun _ => .bind (work_chargePrice _) fun _ =>
    work_setTop _

lemma work_pushFrameField (field : FrameField) : Work (pushFrameField field : Exec σ Unit) :=
  .bind .frame fun _ => work_push _

lemma work_pushEnvField (host : Host σ) (field : EnvField) : Work (pushEnvField host field) :=
  .bind .frame fun _ => .bind (.environment host) fun _ => work_push _

lemma local_pushImmediate (size : Nat) : Local (pushImmediate size : Exec σ Unit) :=
  .bind .frame fun _ => .bind (work_push _).isLocal fun _ => .update fun _ => ⟨rfl, rfl, le_rfl⟩

lemma work_dup (n : Nat) : Work (dup n : Exec σ Unit) := by
  refine .bind .frame fun f => ?_
  dsimp only
  split
  · exact .update fun _ => ⟨⟨rfl, rfl, le_rfl⟩, rfl, rfl, rfl⟩
  · exact .halt _ (by split <;> rfl)

lemma work_swap (n : Nat) : Work (swap n : Exec σ Unit) := by
  refine .bind .frame fun f => ?_
  split
  · exact .update fun _ => ⟨⟨rfl, rfl, le_rfl⟩, rfl, rfl, rfl⟩
  · exact .halt _ rfl

lemma work_mload : Work (mload : Exec σ Unit) :=
  .bind work_operand fun _ => .bind (work_count _ _ rfl) fun _ => .bind (work_reserve _ _) fun _ =>
    .bind .frame fun _ => work_setTop _

lemma work_mstore : Work (mstore : Exec σ Unit) :=
  .bind work_pop2 fun _ => .bind (work_count _ _ rfl) fun _ => .bind (work_reserve _ _) fun _ =>
    .update fun _ => ⟨⟨rfl, rfl, le_rfl⟩, rfl, rfl, rfl⟩

lemma work_mstore8 : Work (mstore8 : Exec σ Unit) :=
  .bind work_pop2 fun _ => .bind (work_count _ _ rfl) fun _ => .bind (work_reserve _ _) fun _ =>
    .update fun _ => ⟨⟨rfl, rfl, le_rfl⟩, rfl, rfl, rfl⟩

lemma work_mcopy : Work (mcopy : Exec σ Unit) :=
  .bind work_pop3 fun _ => .bind (work_count _ _ rfl) fun _ => .bind (work_chargePrice _) fun _ =>
    .ite
      (.bind (work_count _ _ rfl) fun _ => .bind (work_count _ _ rfl) fun _ =>
        .bind (work_reserve _ _) fun _ => .update fun _ => ⟨⟨rfl, rfl, le_rfl⟩, rfl, rfl, rfl⟩)
      (.pure _)

lemma work_keccak256 : Work (keccak256 : Exec σ Unit) :=
  .bind work_operands2 fun _ => .bind (work_count _ _ rfl) fun _ =>
    .bind (work_chargePrice _) fun _ => .bind (work_readMemory _ _) fun _ => work_setTop _

lemma work_callDataLoad : Work (callDataLoad : Exec σ Unit) :=
  .bind work_operand fun _ => .bind .frame fun _ => work_setTop _

lemma work_copyCallData : Work (copyCallData : Exec σ Unit) :=
  .bind work_pop3 fun _ => .bind (work_count _ _ rfl) fun _ => .bind (work_chargePrice _) fun _ =>
    .bind .frame fun _ => work_copyToMemory _ _ _ _

lemma work_copyCode : Work (copyCode : Exec σ Unit) :=
  .bind work_pop3 fun _ => .bind (work_count _ _ rfl) fun _ => .bind (work_chargePrice _) fun _ =>
    .bind .frame fun _ => work_copyToMemory _ _ _ _

lemma work_copyReturnData : Work (copyReturnData : Exec σ Unit) :=
  .bind work_pop3 fun _ => .bind (work_count _ _ rfl) fun _ => .bind (work_chargePrice _) fun _ =>
    .bind .frame fun _ =>
      .ite (.bind (.halt _ rfl) fun _ => work_copyToMemory _ _ _ _) (work_copyToMemory _ _ _ _)

lemma work_copy (source : CopySource) : Work (copy source : Exec σ Unit) := by
  cases source with
  | callData => exact work_copyCallData
  | code => exact work_copyCode
  | returnData => exact work_copyReturnData

lemma work_blockHash (host : Host σ) : Work (blockHash host) :=
  .bind work_operand fun _ => .bind (.environment host) fun _ => work_setTop _

lemma work_blobHash (host : Host σ) : Work (blobHash host) :=
  .bind work_operand fun _ => .bind (.environment host) fun _ => work_setTop _

lemma local_jumpTo (target : Word) : Local (jumpTo target : Exec σ Unit) :=
  .bind (work_count _ _ rfl).isLocal fun _ => .bind .frame fun _ =>
    .ite (.update fun _ => ⟨rfl, rfl, le_rfl⟩) (.halt _ rfl)

lemma local_jump : Local (jump : Exec σ Unit) := .bind work_pop1.isLocal fun _ => local_jumpTo _

lemma local_jumpI : Local (jumpI : Exec σ Unit) :=
  .bind work_pop2.isLocal fun _ => .ite (local_jumpTo _) (.pure _)

lemma local_jumpSub : Local (jumpSub : Exec σ Unit) :=
  .bind work_pop1.isLocal fun _ => .bind (work_count _ _ rfl).isLocal fun _ => .bind .frame fun _ =>
    .ite (.halt _ rfl) (.ite (.halt _ rfl) (.update fun _ => ⟨rfl, rfl, le_rfl⟩))

lemma local_returnSub : Local (returnSub : Exec σ Unit) := by
  refine .bind .frame fun f => ?_
  split
  · exact .halt _ rfl
  · exact .update fun _ => ⟨rfl, rfl, le_rfl⟩

lemma work_finish (status : Status) (h : (status == .running) = false) :
    Work (finish status : Exec σ Unit) :=
  .bind work_pop2 fun _ => .bind (work_count _ _ rfl) fun _ => .bind (work_readMemory _ _) fun _ =>
    .bind (.update fun _ => ⟨⟨rfl, rfl, le_rfl⟩, rfl, rfl, rfl⟩) fun _ => .halt _ h

/-! ## Parts of creations and calls -/

lemma work_forbidStatic : Work (forbidStatic : Exec σ Unit) :=
  .bind .frame fun _ => .ite (.halt _ rfl) (.pure _)

lemma work_initCode (host : Host σ) (start : Word) (len : Nat) : Work (initCode host start len) :=
  .ite (.pure _) <| .bind (work_active _) fun _ =>
    .ite
      (.bind (.environment host) fun _ =>
        .ite (.bind (.halt _ rfl) fun _ => .bind (work_charge _) fun _ => work_readMemory _ _)
          (.bind (work_charge _) fun _ => work_readMemory _ _))
      (work_readMemory _ _)

lemma work_salt (len : Nat) : Work (salt len : Exec σ Word) :=
  .bind work_pop1 fun _ => .bind (work_chargePrice _) fun _ => .pure _

lemma work_callWindows : Work (callWindows : Exec σ (Bytes × Window)) :=
  .bind work_pop4 fun _ => .bind (work_count _ _ rfl) fun _ => .bind (work_readMemory _ _) fun _ =>
    .bind (work_count _ _ rfl) fun _ =>
      .ite (.pure _) <| .bind (work_count _ _ rfl) fun _ => .bind (work_reserve _ _) fun _ => .pure _

lemma work_callOperands (scheme : CallScheme) :
    Work (callOperands scheme : Exec σ (Word × Address × Word)) :=
  .ite (.bind work_pop3 fun _ => .pure _) (.bind work_pop2 fun _ => .pure _)

lemma work_storeOutput (out : Window) (output : Bytes) :
    Work (storeOutput out output : Exec σ Unit) :=
  .update fun _ => ⟨⟨rfl, rfl, le_rfl⟩, rfl, rfl, rfl⟩

/-! ## Gas that comes back -/

/-- Settling a creation brings in no more than what its frame has left. -/
lemma yields_settleCreate (response : CreateResponse) :
    Yields response.outcome.gas.remaining (settleCreate response : Exec σ Unit) := by
  refine .after (.update fun _ => ⟨rfl, rfl, le_rfl⟩) fun _ => ?_
  refine .ite ?_ (.ite ?_ (.ite (.mono (.halt _ rfl)) (.mono (work_push _).isLocal)))
  · exact .after (work_push _).isLocal fun _ => .update fun _ => ⟨rfl, rfl, le_rfl⟩
  · exact .after (work_push _).isLocal fun _ => .update fun _ => ⟨rfl, rfl, le_rfl⟩

/-- Settling a call brings in no more than what its frame has left. -/
lemma yields_settleCall (response : CallResponse) :
    Yields response.outcome.gas.remaining (settleCall response : Exec σ Unit) := by
  have hstore (w : Word) :
      Local (do storeOutput response.out response.outcome.output; push w : Exec σ Unit) :=
    .bind (work_storeOutput _ _).isLocal fun _ => (work_push w).isLocal
  refine .after (.update fun _ => ⟨rfl, rfl, le_rfl⟩) fun _ => ?_
  refine .ite ?_ (.ite ?_ (.ite (.mono (.halt _ rfl)) (.mono (work_push _).isLocal)))
  · exact .before (.update fun _ => ⟨rfl, rfl, le_rfl⟩) fun _ => hstore 1
  · exact .before (.update fun _ => ⟨rfl, rfl, le_rfl⟩) fun _ => hstore 0

end Exec

/-! ## All instructions that are work -/

/-- The instruction says where the frame goes on, or carries bytes that the frame skips. -/
def Instruction.redirects : Instruction → Bool
  | .jump | .jumpI | .jumpSub | .returnSub | .push _ => true
  | _ => false

/-- The instruction asks the host for nothing but the environment, lets the frame go on with what
follows it and leaves the refund counter. -/
def Instruction.isWork : Instruction → Bool
  | .accountField _ | .selfBalance | .extCodeCopy | .sload | .sstore | .tload | .tstore | .log _
  | .selfDestruct | .create _ | .call _ => false
  | i => !i.redirects

namespace Exec

variable {σ : Type}

lemma work_instruction (host : Host σ) {i : Instruction} (h : i.isWork = true) :
    Work (i.run host) := by
  cases i with
  | stop => exact .halt _ rfl
  | unary op => exact work_unary op
  | binary op => exact work_binary op
  | ternary op => exact work_ternary op
  | exp => exact work_exp
  | keccak256 => exact work_keccak256
  | frameField field => exact work_pushFrameField field
  | envField field => exact work_pushEnvField host field
  | callDataLoad => exact work_callDataLoad
  | copy source => exact work_copy source
  | blockHash => exact work_blockHash host
  | blobHash => exact work_blobHash host
  | pop => exact (work_pop 1).map _
  | mload => exact work_mload
  | mstore => exact work_mstore
  | mstore8 => exact work_mstore8
  | mcopy => exact work_mcopy
  | jumpDest => exact .pure _
  | beginSub => exact .halt _ rfl
  | dup depth => exact work_dup depth
  | swap depth => exact work_swap depth
  | ret => exact work_finish _ rfl
  | revert => exact work_finish _ rfl
  | invalid => exact .halt _ rfl
  | _ => contradiction

end Exec

end Evm
