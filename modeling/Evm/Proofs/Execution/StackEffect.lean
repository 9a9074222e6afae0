import Evm.Proofs.Execution.Delivery

/-!
# Effects on the stack

The instruction table says how many words an instruction looks at and how many it leaves in their
place. `Stack.Trades` is that statement about two stacks, the words below included. A program is
followed from one such statement about the stack that the instruction started on to the next
(`Exec.Leads`), so what the table says of an instruction comes out where its program ends
(`Exec.next_trades`). On the way every failure of an instruction turns out to be a fault, and to
end its frame without one an instruction has to be made for that (`Exec.next_error`).
-/

namespace Evm

variable {σ α β : Type}

/-! ## Stacks -/

/-- The later stack has so many words in place of so many words taken from the top of the earlier
one, and the words below are the same. -/
structure Stack.Trades (taken given : Nat) (s s' : Stack) : Prop where
  enough : taken ≤ s.height
  height : s'.height + taken = s.height + given
  below : s'.words.drop given = s.words.drop taken

namespace Stack.Trades

variable {s₀ s s' : Stack} {taken given n k : Nat} {w : Word}

lemma refl (s : Stack) : Trades 0 0 s s := ⟨Nat.zero_le _, rfl, rfl⟩

lemma eq (h : Trades 0 0 s s') : s' = s := Stack.ext h.below

/-- Words are taken, of which the last ones stay in place. -/
lemma drop (h : Trades taken 0 s₀ s) (hn : n + k ≤ s.height) :
    Trades (taken + (n + k)) k s₀ (s.drop n) := by
  obtain ⟨henough, hheight, hbelow⟩ := h
  refine ⟨by omega, ?_, ?_⟩
  · show s.height - n + _ = _
    omega
  · have hrest : s₀.words.drop (taken + (n + k)) = s.words.drop (n + k) := by
      rw [← List.drop_drop, ← hbelow, List.drop_zero]
    rw [hrest]
    exact List.drop_drop

lemma push (h : Trades taken given s₀ s) (hs : s.push? w = some s') :
    Trades taken (given + 1) s₀ s' := by
  unfold push? at hs
  split at hs
  · cases hs
    refine ⟨h.enough, ?_, h.below⟩
    have hheight := h.height
    show s.height + 1 + _ = _
    omega
  · cases hs

lemma setTop (h : Trades taken (given + 1) s₀ s) (w : Word) :
    Trades taken (given + 1) s₀ (s.setTop w) := by
  refine ⟨h.enough, h.height, ?_⟩
  rw [← h.below]
  exact List.drop_set_of_lt (Nat.succ_pos given)

/-- A word that is copied is looked at together with all above it. -/
lemma dup (hs : s.dup? n = some s') : Trades n (n + 1) s s' := by
  unfold dup? at hs
  split at hs
  · cases hs
  · obtain ⟨w, hw, hpush⟩ := Option.bind_eq_some_iff.1 hs
    have hlt := (List.getElem?_eq_some_iff.1 hw).1
    have hlength := s.height_eq
    unfold push? at hpush
    split at hpush
    · cases hpush
      refine ⟨by omega, ?_, rfl⟩
      show s.height + 1 + n = _
      omega
    · cases hpush

/-- Words that are exchanged are looked at together with all between them. -/
lemma swap (hs : s.swap? n = some s') : Trades (n + 1) (n + 1) s s' := by
  unfold swap? at hs
  split at hs
  · rename_i top rest other hwords hother
    split at hs
    · cases hs
    · cases hs
      have hlt := (List.getElem?_eq_some_iff.1 hother).1
      have hlength := s.height_eq
      refine ⟨by omega, rfl, ?_⟩
      show ((s.words.set 0 other).set n top).drop (n + 1) = _
      rw [List.drop_set_of_lt (Nat.lt_succ_self n), List.drop_set_of_lt (Nat.succ_pos n)]
  · cases hs

end Stack.Trades

/-! ## Failures -/

namespace Status

/-- How an instruction fails. -/
def isFault (s : Status) : Bool := s.isError && s != .nonceOverflow

/-- How an instruction ends its frame that is made for that. -/
def isDeliberate : Status → Bool
  | stop | ret | selfDestruct | revert => true
  | _ => false

lemma isError_of_isFault {s : Status} (h : s.isFault = true) : s.isError = true :=
  ((Bool.and_eq_true _ _).mp h).1

end Status

/-! ## Programs -/

namespace Exec

variable {A B C : Stack → Prop} {p p' : Exec σ α} {q : α → Exec σ β}

/-- From a stack of the first kind the program comes to one of the second and leaves the status, or
it fails. -/
def Leads (A B : Stack → Prop) (p : Exec σ α) : Prop :=
  ∀ x, A x.1.stack →
    (∀ a y, p.run x = (.ok a, y) → B y.1.stack ∧ y.1.status = x.1.status) ∧
      ∀ status y, p.run x = (.error status, y) → status.isFault = true

/-- From a stack of the first kind the program comes to one of the second and leaves the status,
where it may end the frame as well, or it fails. -/
def Concludes (A B : Stack → Prop) (p : Exec σ α) : Prop :=
  ∀ x, A x.1.stack →
    (∀ a y, p.run x = (.ok a, y) → B y.1.stack ∧ y.1.status = x.1.status) ∧
      ∀ status y, p.run x = (.error status, y) →
        status.isFault = true ∨ status.isDeliberate = true ∧ B y.1.stack

namespace Leads

lemma pure (a : α) : Leads A A (Pure.pure a : Exec σ α) := by
  intro x hx
  refine ⟨fun b y h => ?_, fun _ _ => nofun⟩
  cases h
  exact ⟨hx, rfl⟩

lemma halt {status : Status} (h : status.isFault = true) :
    Leads A B (Exec.halt status : Exec σ α) := by
  intro x _
  refine ⟨fun _ _ => nofun, fun _ y hrun => ?_⟩
  cases hrun
  exact h

lemma bind (hp : Leads A B p) (hq : ∀ a, Leads B C (q a)) : Leads A C (p >>= q) := by
  intro x hx
  obtain ⟨hok, herror⟩ := hp x hx
  rcases hrun : p.run x with ⟨status | a, y⟩
  · rw [Program.run_bind_error hrun]
    refine ⟨fun _ _ => nofun, fun status' y' h => ?_⟩
    cases h
    exact herror status y hrun
  · rw [Program.run_bind_ok hrun]
    obtain ⟨hy, hstatus⟩ := hok a y hrun
    rw [← hstatus]
    exact hq a y hy

lemma map (hp : Leads A B p) (g : α → β) : Leads A B (g <$> p) := by
  rw [map_eq_pure_bind]
  exact hp.bind fun _ => .pure _

lemma ite {c : Prop} [Decidable c] (hp : c → Leads A B p) (hp' : ¬c → Leads A B p') :
    Leads A B (if c then p else p') := by
  split
  · exact hp ‹_›
  · exact hp' ‹_›

lemma update {g : Frame → Frame}
    (hg : ∀ f : Frame, A f.stack → B (g f).stack ∧ (g f).status = f.status) :
    Leads A B (Exec.update g : Exec σ Unit) := by
  intro x hx
  refine ⟨fun _ y h => ?_, fun _ _ => nofun⟩
  cases h
  exact hg x.1 hx

/-- What comes after a look at the frame may depend on its stack. -/
lemma frame_bind {q : Frame → Exec σ β} (hq : ∀ f, A f.stack → Leads (· = f.stack) B (q f)) :
    Leads A B (Exec.frame >>= q) := by
  intro x hx
  exact hq x.1 hx x rfl

lemma frame : Leads A A (Exec.frame : Exec σ Frame) := by
  intro x hx
  refine ⟨fun f y h => ?_, fun _ _ => nofun⟩
  cases h
  exact ⟨hx, rfl⟩

lemma environment (host : Host σ) : Leads A A (Exec.environment host) := by
  intro x hx
  refine ⟨fun env y h => ?_, fun _ _ => nofun⟩
  cases h
  exact ⟨hx, rfl⟩

lemma tell (op : StateM σ α) : Leads A A (Exec.tell op) := by
  intro x hx
  refine ⟨fun a y h => ?_, fun _ _ => nofun⟩
  cases h
  exact ⟨hx, rfl⟩

lemma ask (op : HostM σ α) : Leads A A (Exec.ask op) := by
  refine .bind (.tell _) fun a? => ?_
  cases a? with
  | none => exact .halt rfl
  | some a => exact .pure a

lemma concludes (hp : Leads A B p) : Concludes A B p := by
  intro x hx
  obtain ⟨hok, herror⟩ := hp x hx
  exact ⟨hok, fun status y h => .inl (herror status y h)⟩

/-- What has not failed may end the frame. -/
lemma bind_concludes (hp : Leads A B p) (hq : ∀ a, Concludes B C (q a)) :
    Concludes A C (p >>= q) := by
  intro x hx
  obtain ⟨hok, herror⟩ := hp x hx
  rcases hrun : p.run x with ⟨status | a, y⟩
  · rw [Program.run_bind_error hrun]
    refine ⟨fun _ _ => nofun, fun status' y' h => ?_⟩
    cases h
    exact .inl (herror status y hrun)
  · rw [Program.run_bind_ok hrun]
    obtain ⟨hy, hstatus⟩ := hok a y hrun
    rw [← hstatus]
    exact hq a y hy

end Leads

lemma concludes_halt {status : Status} (h : status.isDeliberate = true) :
    Concludes A A (halt status : Exec σ α) := by
  intro x hx
  refine ⟨fun _ _ => nofun, fun _ y hrun => ?_⟩
  cases hrun
  exact .inr ⟨h, hx⟩

/-! ## Steps that leave the stack -/

lemma leads_active (eip : Eip) : Leads A A (active eip : Exec σ Bool) :=
  .bind .frame fun _ => .pure _

lemma leads_forbidStatic : Leads A A (forbidStatic : Exec σ Unit) :=
  .bind .frame fun _ => .ite (fun _ => .halt rfl) fun _ => .pure _

lemma leads_charge (cost : Nat) : Leads A A (charge cost : Exec σ Unit) := by
  refine .bind .frame fun f => ?_
  split
  · exact .halt rfl
  · exact .update fun _ h => ⟨h, rfl⟩

lemma leads_chargePrice (price : Option Nat) : Leads A A (chargePrice price : Exec σ Unit) := by
  cases price with
  | none => exact .halt rfl
  | some cost => exact leads_charge cost

lemma leads_count (w : Word) {otherwise : Status} (h : otherwise.isFault = true) :
    Leads A A (count w otherwise : Exec σ Nat) := by
  unfold count
  split
  · exact .halt h
  · exact .pure _

lemma leads_reserve (start len : Nat) : Leads A A (reserve start len : Exec σ Unit) := by
  refine .bind .frame fun f => ?_
  split
  · exact .update fun _ h => ⟨h, rfl⟩
  · exact .update fun _ h => ⟨h, rfl⟩
  · exact .bind (.update fun _ h => ⟨h, rfl⟩) fun _ => .halt (B := A) rfl

lemma leads_readMemory (start : Word) (len : Nat) :
    Leads A A (readMemory start len : Exec σ Bytes) :=
  .ite (fun _ => .pure _) fun _ => .bind (leads_count _ rfl) fun _ =>
    .bind (leads_reserve _ _) fun _ => .bind .frame fun _ => .pure _

lemma leads_copyToMemory (dst srcStart : Word) (len : Nat) (src : Bytes) :
    Leads A A (copyToMemory dst srcStart len src : Exec σ Unit) :=
  .ite (fun _ => .bind (leads_count _ rfl) fun _ => .bind (leads_reserve _ _) fun _ =>
    .update fun _ h => ⟨h, rfl⟩) fun _ => .pure _

lemma leads_initCode (host : Host σ) (start : Word) (len : Nat) :
    Leads A A (initCode host start len) := by
  have hread : Leads A A (do charge (Gas.initCode len); readMemory start len : Exec σ Bytes) :=
    .bind (leads_charge _) fun _ => leads_readMemory _ _
  refine .ite (fun _ => .pure _) fun _ => .bind (leads_active _) fun _ =>
    .ite (fun _ => .bind (.environment host) fun _ => ?_) fun _ => leads_readMemory _ _
  exact .ite (fun _ => .bind (.halt (B := A) rfl) fun _ => hread) fun _ => hread

lemma leads_grantToCreation : Leads A A (grantToCreation : Exec σ Nat) :=
  .bind .frame fun _ => .bind (leads_active _) fun _ => .bind (leads_charge _) fun _ => .pure _

lemma leads_callGrant (host : Host σ) (scheme : CallScheme) (callee : Address)
    (movesValue : Bool) (requested : Nat) :
    Leads A A (callGrant host scheme callee movesValue requested) :=
  .bind (.ask _) fun _ => .bind .frame fun _ => .bind (leads_charge _) fun _ =>
    .ite (fun _ => .bind .frame fun _ => .pure _) fun _ => .pure _

lemma leads_jumpTo (target : Word) : Leads A A (jumpTo target : Exec σ Unit) :=
  .bind (leads_count _ rfl) fun _ => .bind .frame fun _ =>
    .ite (fun _ => .update fun _ h => ⟨h, rfl⟩) fun _ => .halt rfl

/-! ## Steps that work on the stack -/

section

variable {s₀ : Stack} {taken given : Nat}

lemma leads_pop (n : Nat) :
    Leads (s₀.Trades taken 0) (s₀.Trades (taken + n) 0) (pop n : Exec σ (Vector Word n)) := by
  refine .frame_bind fun f hf => ?_
  split
  · exact .halt rfl
  · rename_i words stack hpop
    unfold Stack.pop? at hpop
    split at hpop
    · rename_i hle
      cases hpop
      exact .bind (.update fun _ _ => ⟨hf.drop (k := 0) hle, rfl⟩) fun _ => .pure _
    · cases hpop

lemma leads_operands (n : Nat) :
    Leads (s₀.Trades taken 0) (s₀.Trades (taken + (n + 1)) 1)
      (operands n : Exec σ (Vector Word (n + 1))) := by
  refine .frame_bind fun f hf => ?_
  split
  · exact .halt rfl
  · rename_i words stack hpop
    unfold Stack.pop? at hpop
    split at hpop
    · rename_i hle
      refine .bind (.update fun f' hf' => ⟨?_, rfl⟩) fun _ => .pure _
      show s₀.Trades _ _ (f'.stack.drop n)
      rw [hf']
      exact hf.drop hle
    · cases hpop

lemma leads_pop1 : Leads (s₀.Trades taken 0) (s₀.Trades (taken + 1) 0) (pop1 : Exec σ Word) :=
  .bind (leads_pop 1) fun _ => .pure _

lemma leads_pop2 :
    Leads (s₀.Trades taken 0) (s₀.Trades (taken + 2) 0) (pop2 : Exec σ (Word × Word)) :=
  .bind (leads_pop 2) fun _ => .pure _

lemma leads_pop3 :
    Leads (s₀.Trades taken 0) (s₀.Trades (taken + 3) 0) (pop3 : Exec σ (Word × Word × Word)) :=
  .bind (leads_pop 3) fun _ => .pure _

lemma leads_pop4 :
    Leads (s₀.Trades taken 0) (s₀.Trades (taken + 4) 0)
      (pop4 : Exec σ (Word × Word × Word × Word)) :=
  .bind (leads_pop 4) fun _ => .pure _

lemma leads_operand :
    Leads (s₀.Trades taken 0) (s₀.Trades (taken + 1) 1) (operand : Exec σ Word) :=
  .bind (leads_operands 0) fun _ => .pure _

lemma leads_operands2 :
    Leads (s₀.Trades taken 0) (s₀.Trades (taken + 2) 1) (operands2 : Exec σ (Word × Word)) :=
  .bind (leads_operands 1) fun _ => .pure _

lemma leads_operands3 :
    Leads (s₀.Trades taken 0) (s₀.Trades (taken + 3) 1)
      (operands3 : Exec σ (Word × Word × Word)) :=
  .bind (leads_operands 2) fun _ => .pure _

lemma leads_push (w : Word) :
    Leads (s₀.Trades taken given) (s₀.Trades taken (given + 1)) (push w : Exec σ Unit) := by
  refine .frame_bind fun f hf => ?_
  split
  · exact .halt rfl
  · rename_i stack hpush
    exact .update fun _ _ => ⟨hf.push hpush, rfl⟩

lemma leads_setTop (w : Word) :
    Leads (s₀.Trades taken (given + 1)) (s₀.Trades taken (given + 1)) (setTop w : Exec σ Unit) :=
  .update fun _ h => ⟨h.setTop w, rfl⟩

lemma leads_salt (len : Nat) :
    Leads (s₀.Trades taken 0) (s₀.Trades (taken + 1) 0) (salt len : Exec σ Word) :=
  .bind leads_pop1 fun _ => .bind (leads_chargePrice _) fun _ => .pure _

lemma leads_callOperands (scheme : CallScheme) :
    Leads (s₀.Trades taken 0) (s₀.Trades (taken + if takesValue scheme then 3 else 2) 0)
      (callOperands scheme : Exec σ (Word × Address × Word)) := by
  refine .ite (fun h => ?_) fun h => ?_
  · rw [if_pos h]
    exact .bind leads_pop3 fun _ => .pure _
  · rw [if_neg h]
    exact .bind leads_pop2 fun _ => .pure _

lemma leads_callWindows :
    Leads (s₀.Trades taken 0) (s₀.Trades (taken + 4) 0)
      (callWindows : Exec σ (Bytes × Window)) :=
  .bind leads_pop4 fun _ => .bind (leads_count _ rfl) fun _ =>
    .bind (leads_readMemory _ _) fun _ => .bind (leads_count _ rfl) fun _ =>
      .ite (fun _ => .pure _) fun _ => .bind (leads_count _ rfl) fun _ =>
        .bind (leads_reserve _ _) fun _ => .pure _

lemma leads_openCall (host : Host σ) (scheme : CallScheme) (v : Word × Address × Word) :
    Leads (s₀.Trades taken 0) (s₀.Trades (taken + 4) 0) (openCall host scheme v) :=
  .bind leads_callWindows fun _ => .bind (leads_callGrant _ _ _ _ _) fun _ =>
    .bind (leads_charge _) fun _ => .bind .frame fun _ => .pure _

lemma leads_prepareCall (host : Host σ) (scheme : CallScheme) :
    Leads (s₀.Trades 0 0) (s₀.Trades (Instruction.call scheme).inputs 0)
      (prepareCall host scheme) := by
  have hinputs :
      (Instruction.call scheme).inputs = 0 + (if takesValue scheme then 3 else 2) + 4 := by
    cases scheme <;> rfl
  rw [hinputs]
  refine .bind (leads_callOperands scheme) fun v => ?_
  -- A static frame must not move value; otherwise the call is prepared in the same way.
  have hrest : Leads (s₀.Trades (0 + if takesValue scheme then 3 else 2) 0) _
      (openCall host scheme v) := leads_openCall host scheme v
  exact .ite (fun _ => .bind .frame fun _ => .ite (fun _ => .bind (.halt rfl) fun _ => hrest)
    fun _ => hrest) fun _ => hrest

lemma leads_settleCall (response : CallResponse) :
    Leads (s₀.Trades taken 0) (s₀.Trades taken 1) (settleCall response : Exec σ Unit) := by
  have hstore (w : Word) : Leads (s₀.Trades taken 0) (s₀.Trades taken 1)
      (do storeOutput response.out response.outcome.output; push w : Exec σ Unit) :=
    .bind (.update fun _ h => ⟨h, rfl⟩) fun _ => leads_push w
  refine .bind (.update fun _ h => ⟨h, rfl⟩) fun _ => .ite (fun _ => ?_) fun _ => .ite (fun _ => ?_)
    fun _ => .ite (fun _ => .halt rfl) fun _ => leads_push 0
  · exact .bind (.update fun _ h => ⟨h, rfl⟩) fun _ => hstore 1
  · exact .bind (.update fun _ h => ⟨h, rfl⟩) fun _ => hstore 0

lemma leads_prepareCreate (host : Host σ) (salted : Bool) :
    Leads (s₀.Trades 0 0) (s₀.Trades (Instruction.create salted).inputs 0)
      (prepareCreate host salted) := by
  have hgrant (salt? : Option Word) (value : Word) (initCode : Bytes) {A : Stack → Prop} :
      Leads A A (do
        let gasLimit ← grantToCreation
        return { caller := (← frame).address, salt?, value, initCode, gasLimit } :
          Exec σ CreateRequest) :=
    .bind leads_grantToCreation fun _ => .bind .frame fun _ => .pure _
  refine .bind leads_forbidStatic fun _ => .bind leads_pop3 fun _ =>
    .bind (leads_count _ rfl) fun len => .bind (leads_initCode _ _ _) fun _ => ?_
  cases salted with
  | false => exact .bind (.pure _) fun _ => hgrant _ _ _
  | true => exact .bind ((leads_salt len).map _) fun _ => hgrant _ _ _

lemma leads_settleCreate (response : CreateResponse) :
    Leads (s₀.Trades taken 0) (s₀.Trades taken 1) (settleCreate response : Exec σ Unit) := by
  refine .bind (.update fun _ h => ⟨h, rfl⟩) fun _ => .ite (fun _ => ?_) fun _ => .ite (fun _ => ?_)
    fun _ => .ite (fun _ => .halt rfl) fun _ => leads_push 0
  · exact .bind (leads_push _) fun _ => .update fun _ h => ⟨h, rfl⟩
  · exact .bind (leads_push _) fun _ => .update fun _ h => ⟨h, rfl⟩

end

/-! ## Instructions -/

variable {s₀ : Stack}

lemma leads_copy (source : CopySource) :
    Leads (s₀.Trades 0 0) (s₀.Trades 3 0) (copy source : Exec σ Unit) := by
  have hoperands {q : Word × Word × Word → Nat → Exec σ Unit}
      (hq : ∀ v len, Leads (s₀.Trades 3 0) (s₀.Trades 3 0) (q v len)) :
      Leads (s₀.Trades 0 0) (s₀.Trades 3 0) (do
        let v ← pop3
        let len ← count v.2.2
        chargePrice (Gas.copy len)
        q v len) :=
    .bind leads_pop3 fun v => .bind (leads_count _ rfl) fun len =>
      .bind (leads_chargePrice _) fun _ => by
        rw [Nat.zero_add]
        exact hq v len
  cases source with
  | callData => exact hoperands fun _ _ => .bind .frame fun _ => leads_copyToMemory _ _ _ _
  | code => exact hoperands fun _ _ => .bind .frame fun _ => leads_copyToMemory _ _ _ _
  | returnData =>
    exact hoperands fun _ _ => .bind .frame fun _ =>
      .ite (fun _ => .bind (.halt (B := s₀.Trades 3 0) rfl) fun _ => leads_copyToMemory _ _ _ _)
        fun _ => leads_copyToMemory _ _ _ _

lemma leads_mcopy : Leads (s₀.Trades 0 0) (s₀.Trades (0 + 3) 0) (mcopy : Exec σ Unit) :=
  .bind leads_pop3 fun _ => .bind (leads_count _ rfl) fun _ => .bind (leads_chargePrice _) fun _ =>
    .ite (fun _ => .bind (leads_count _ rfl) fun _ => .bind (leads_count _ rfl) fun _ =>
      .bind (leads_reserve _ _) fun _ => .update fun _ h => ⟨h, rfl⟩) fun _ => .pure _

lemma leads_sstore (host : Host σ) :
    Leads (s₀.Trades 0 0) (s₀.Trades (0 + 2) 0) (sstore host) := by
  refine .bind leads_forbidStatic fun _ => .bind leads_pop2 fun v => .bind .frame fun f => ?_
  have hstore : Leads (s₀.Trades (0 + 2) 0) (s₀.Trades (0 + 2) 0) (do
      let write ← ask (host.storeSlot f.address v.1 v.2)
      charge (Gas.slotStore f.features write.value write.isCold)
      update fun f => { f with gas := f.gas.addRefund (Gas.slotRefund f.features write.value) }) :=
    .bind (.ask _) fun _ => .bind (leads_charge _) fun _ => .update fun _ h => ⟨h, rfl⟩
  exact .ite (fun _ => .bind (.halt (B := s₀.Trades (0 + 2) 0) rfl) fun _ => hstore)
    fun _ => hstore

lemma leads_log (host : Host σ) (topics : Nat) :
    Leads (s₀.Trades 0 0) (s₀.Trades (0 + 2 + topics) 0) (log host topics) :=
  .bind leads_forbidStatic fun _ => .bind leads_pop2 fun _ => .bind (leads_count _ rfl) fun _ =>
    .bind (leads_chargePrice _) fun _ => .bind (leads_readMemory _ _) fun _ =>
      .bind (leads_pop topics) fun _ => .bind .frame fun _ => .tell _

lemma leads_dup (n : Nat) : Leads (s₀.Trades 0 0) (s₀.Trades n (n + 1)) (dup n : Exec σ Unit) := by
  refine .frame_bind fun f hf => ?_
  dsimp only
  split
  · rename_i stack hdup
    exact .update fun _ _ => ⟨hf.eq ▸ .dup hdup, rfl⟩
  · exact .halt (by split <;> rfl)

lemma leads_swap (n : Nat) :
    Leads (s₀.Trades 0 0) (s₀.Trades (n + 1) (n + 1)) (swap n : Exec σ Unit) := by
  refine .frame_bind fun f hf => ?_
  split
  · rename_i stack hswap
    exact .update fun _ _ => ⟨hf.eq ▸ .swap hswap, rfl⟩
  · exact .halt rfl

lemma leads_jumpSub : Leads (s₀.Trades 0 0) (s₀.Trades 1 0) (jumpSub : Exec σ Unit) :=
  .bind leads_pop1 fun _ => .bind (leads_count _ rfl) fun _ => .bind .frame fun _ =>
    .ite (fun _ => .halt rfl) fun _ => .ite (fun _ => .halt rfl) fun _ =>
      .update fun _ h => ⟨h, rfl⟩

lemma leads_returnSub : Leads (s₀.Trades 0 0) (s₀.Trades 0 0) (returnSub : Exec σ Unit) := by
  refine .bind .frame fun f => ?_
  split
  · exact .halt rfl
  · exact .update fun _ h => ⟨h, rfl⟩

lemma leads_call (host : Host σ) (scheme : CallScheme) :
    Leads (s₀.Trades 0 0) (s₀.Trades (Instruction.call scheme).inputs 1) (call host scheme) := by
  rw [call_eq]
  exact .bind (leads_prepareCall host scheme) fun _ => .bind (.tell _) fun _ =>
    leads_settleCall _

lemma leads_create (host : Host σ) (salted : Bool) :
    Leads (s₀.Trades 0 0) (s₀.Trades (Instruction.create salted).inputs 1)
      (create host salted) := by
  rw [create_eq]
  exact .bind (leads_prepareCreate host salted) fun _ => .bind (.tell _) fun _ =>
    leads_settleCreate _

lemma concludes_finish {status : Status} (h : status.isDeliberate = true) :
    Concludes (s₀.Trades 0 0) (s₀.Trades 2 0) (finish status : Exec σ Unit) :=
  leads_pop2.bind_concludes fun _ => (leads_count _ rfl).bind_concludes fun _ =>
    (leads_readMemory _ _).bind_concludes fun _ =>
      Leads.bind_concludes (.update fun _ h => ⟨h, rfl⟩) fun _ => concludes_halt h

lemma concludes_selfDestruct (host : Host σ) :
    Concludes (s₀.Trades 0 0) (s₀.Trades 1 0) (selfDestruct host) := by
  have hend (cost : Nat) : Concludes (s₀.Trades 1 0) (s₀.Trades 1 0)
      (do charge cost; halt .selfDestruct : Exec σ Unit) :=
    (leads_charge cost).bind_concludes fun _ => concludes_halt rfl
  refine leads_forbidStatic.bind_concludes fun _ => leads_pop1.bind_concludes fun _ =>
    Leads.frame.bind_concludes fun _ => (Leads.ask _).bind_concludes fun _ =>
      Leads.frame.bind_concludes fun _ => ?_
  dsimp only
  split
  · exact Leads.bind_concludes (.update fun _ h => ⟨h, rfl⟩) fun _ => hend _
  · exact hend _

/-- An instruction that the frame goes on after takes and leaves as many words as the table says,
unless it fails. -/
lemma leads_instruction (host : Host σ) {i : Instruction} (h : i.isTerminating = false) :
    Leads (s₀.Trades 0 0) (s₀.Trades i.inputs i.outputs) (i.run host) := by
  cases i with
  | unary op => exact .bind leads_operand fun _ => leads_setTop _
  | binary op => exact .bind leads_operands2 fun _ => leads_setTop _
  | ternary op => exact .bind leads_operands3 fun _ => leads_setTop _
  | exp =>
    exact .bind leads_operands2 fun _ => .bind .frame fun _ => .bind (leads_chargePrice _) fun _ =>
      leads_setTop _
  | keccak256 =>
    exact .bind leads_operands2 fun _ => .bind (leads_count _ rfl) fun _ =>
      .bind (leads_chargePrice _) fun _ => .bind (leads_readMemory _ _) fun _ => leads_setTop _
  | frameField field => exact .bind .frame fun _ => leads_push _
  | envField field => exact .bind .frame fun _ => .bind (.environment host) fun _ => leads_push _
  | accountField field =>
    exact .bind leads_operand fun _ => .bind (.ask _) fun _ => .bind .frame fun _ =>
      .bind (leads_charge _) fun _ => leads_setTop _
  | selfBalance => exact .bind .frame fun _ => .bind (.ask _) fun _ => leads_push _
  | callDataLoad => exact .bind leads_operand fun _ => .bind .frame fun _ => leads_setTop _
  | copy source => exact leads_copy source
  | extCodeCopy =>
    exact .bind leads_pop4 fun _ => .bind (.ask _) fun _ => .bind (leads_count _ rfl) fun _ =>
      .bind .frame fun _ => .bind (leads_chargePrice _) fun _ => leads_copyToMemory _ _ _ _
  | blockHash =>
    exact .bind leads_operand fun _ => .bind (.environment host) fun _ => leads_setTop _
  | blobHash =>
    exact .bind leads_operand fun _ => .bind (.environment host) fun _ => leads_setTop _
  | pop => exact .map (leads_pop 1) _
  | mload =>
    exact .bind leads_operand fun _ => .bind (leads_count _ rfl) fun _ =>
      .bind (leads_reserve _ _) fun _ => .bind .frame fun _ => leads_setTop _
  | mstore =>
    exact .bind leads_pop2 fun _ => .bind (leads_count _ rfl) fun _ =>
      .bind (leads_reserve _ _) fun _ => .update fun _ h => ⟨h, rfl⟩
  | mstore8 =>
    exact .bind leads_pop2 fun _ => .bind (leads_count _ rfl) fun _ =>
      .bind (leads_reserve _ _) fun _ => .update fun _ h => ⟨h, rfl⟩
  | mcopy => exact leads_mcopy
  | sload =>
    exact .bind leads_operand fun _ => .bind .frame fun _ => .bind (.ask _) fun _ =>
      .bind .frame fun _ => .bind (leads_charge _) fun _ => leads_setTop _
  | sstore => exact leads_sstore host
  | tload =>
    exact .bind leads_operand fun _ => .bind .frame fun _ => .bind (.tell _) fun _ =>
      leads_setTop _
  | tstore =>
    exact .bind leads_forbidStatic fun _ => .bind leads_pop2 fun _ => .bind .frame fun _ => .tell _
  | jump => exact .bind leads_pop1 fun _ => leads_jumpTo _
  | jumpI => exact .bind leads_pop2 fun _ => .ite (fun _ => leads_jumpTo _) fun _ => .pure _
  | jumpDest => exact .pure _
  | beginSub => exact .halt rfl
  | returnSub => exact leads_returnSub
  | jumpSub => exact leads_jumpSub
  | push size =>
    exact .bind .frame fun _ => .bind (leads_push _) fun _ => .update fun _ h => ⟨h, rfl⟩
  | dup depth => exact leads_dup depth
  | swap depth => exact leads_swap depth
  | log topics =>
    have hlog : Leads (s₀.Trades 0 0) (s₀.Trades (0 + 2 + topics) 0) (log host topics) :=
      leads_log host topics
    rwa [Nat.zero_add, Nat.add_comm] at hlog
  | create salted => exact leads_create host salted
  | call scheme => exact leads_call host scheme
  | _ => contradiction

/-- An instruction takes and leaves as many words as the table says, unless it fails. -/
lemma concludes_instruction (host : Host σ) (i : Instruction) :
    Concludes (s₀.Trades 0 0) (s₀.Trades i.inputs i.outputs) (i.run host) := by
  cases hi : i.isTerminating with
  | false => exact (leads_instruction host hi).concludes
  | true =>
    -- These are the ones that the table has end the frame.
    cases i with
    | stop => exact concludes_halt rfl
    | ret => exact concludes_finish rfl
    | revert => exact concludes_finish rfl
    | selfDestruct => exact concludes_selfDestruct host
    | invalid => exact (Leads.halt rfl).concludes
    | _ => contradiction

/-! ## The next instruction -/

lemma leads_fetch : Leads A A (fetch : Exec σ Instruction) := by
  refine .bind .frame fun f => ?_
  split
  · exact .halt rfl
  · exact .ite (fun _ => .bind (leads_charge _) fun _ => .bind (.update fun _ h => ⟨h, rfl⟩) fun _ =>
      .pure _) fun _ => .halt rfl

variable {f : Frame} {s : σ} {host : Host σ}

/-- The next instruction trades words as the table says and leaves the status, unless it fails. -/
lemma next_trades (host : Host σ) (s : σ) {i : Instruction} (hi : f.instruction? = some i) :
    (∀ a y, (next host).run (f, s) = (.ok a, y) →
      f.stack.Trades i.inputs i.outputs y.1.stack ∧ y.1.status = f.status) ∧
    ∀ status y, (next host).run (f, s) = (.error status, y) → status.isFault = true ∨
      status.isDeliberate = true ∧ f.stack.Trades i.inputs i.outputs y.1.stack := by
  rw [next_eq]
  -- The stack that the instruction is run on is that of the frame it is fetched in.
  obtain ⟨hok, herror⟩ := leads_fetch (A := f.stack.Trades 0 0) (f, s) (.refl _)
  rcases hfetch : (fetch : Exec σ Instruction).run (f, s) with ⟨status | i', y⟩
  · rw [Program.run_bind_error hfetch]
    refine ⟨fun _ _ => nofun, fun status' y' h => ?_⟩
    cases h
    exact .inl (herror status y hfetch)
  · obtain ⟨hi', -⟩ := fetch_eq_ok hfetch
    cases hi.symm.trans hi'
    obtain ⟨hy, hstatus⟩ := hok i y hfetch
    rw [Program.run_bind_ok hfetch, ← hstatus]
    exact concludes_instruction host i y hy

lemma next_ok {a : Unit} {y : Frame × σ} (h : (next host).run (f, s) = (.ok a, y)) :
    y.1.status = f.status := by
  rcases hi : f.instruction? with _ | i
  · unfold next at h
    rw [frame_bind_run, hi] at h
    cases h
  · exact ((next_trades host s hi).1 a y h).2

/-- An instruction fails by a fault, if it does not end its frame on purpose. -/
lemma next_error {status : Status} {y : Frame × σ}
    (h : (next host).run (f, s) = (.error status, y)) :
    status.isFault = true ∨ status.isDeliberate = true := by
  rcases hi : f.instruction? with _ | i
  · unfold next at h
    rw [frame_bind_run, hi] at h
    cases h
    exact .inl rfl
  · exact ((next_trades host s hi).2 status y h).imp_right And.left

end Exec

/-- The stack effect of an instruction is the one that the table gives it, whatever the host
answers. A step that does not end in an exceptional halt has found the words on the stack that the
instruction looks at, and has left as many more as the table says, within the limit; the words below
are the same. So where there are too few words, or would be too many, the step ends in an
exceptional halt. -/
theorem Exec.next_stack (host : Host σ) {f : Frame} (s : σ) {i : Instruction}
    (hi : f.instruction? = some i) :
    let f' := ((next host).perform (f, s)).1
    (f'.status.isError = false →
      i.inputs ≤ f.stack.height ∧
      (f'.stack.height : Int) = f.stack.height + i.stackChange ∧
      f'.stack.height ≤ stackLimit ∧
      f'.stack.words.drop i.outputs = f.stack.words.drop i.inputs) ∧
    (f.stack.height < i.inputs ∨ (stackLimit : Int) < f.stack.height + i.stackChange →
      f'.status.isError = true) := by
  intro f'
  have htrades (hok : f'.status.isError = false) :
      f.stack.Trades i.inputs i.outputs f'.stack := by
    obtain ⟨hgoes, hends⟩ := next_trades host s hi
    rcases hrun : (next host).run (f, s) with ⟨status | _, y⟩
    · have hframe : f' = { y.1 with status } := by
        show ((next host).perform (f, s)).1 = _
        unfold perform
        rw [hrun]
      rw [hframe] at hok ⊢
      cases hends status y hrun with
      | inl hfault => exact absurd (Status.isError_of_isFault hfault) (Bool.eq_false_iff.1 hok)
      | inr hend => exact hend.2
    · have hframe : f' = y.1 := by
        show ((next host).perform (f, s)).1 = _
        unfold perform
        rw [hrun]
      rw [hframe]
      exact (hgoes _ y hrun).1
  have hlimit := f'.stack.height_le
  unfold Instruction.stackChange
  refine ⟨fun hok => ?_, fun hstack => ?_⟩
  · obtain ⟨henough, hheight, hbelow⟩ := htrades hok
    exact ⟨henough, by omega, hlimit, hbelow⟩
  · -- Without a halt the words would have been traded, and they are not there.
    by_contra hnot
    obtain ⟨henough, hheight, -⟩ := htrades (Bool.not_eq_true _ ▸ hnot)
    omega

/-- A call leaves one word in place of seven, although the host has it reverted; with two words less
it halts. -/
theorem Exec.next_stack_calling :
    Frame.calling.instruction? = some (.call .call) ∧
      (let f' := ((next Sandbox.reverting).perform (.calling, {})).1
      f'.status.isError = false ∧ f'.stack.height = 2 ∧ f'.stack.words.drop 1 = [9]) ∧
      let few := { Frame.calling with stack := Frame.calling.stack.drop 2 }
      ((next Sandbox.reverting).perform (few, {})).1.status.isError = true := by
  have hi : Frame.calling.instruction? = some (.call .call) := by decide
  refine ⟨hi, ?_, ?_⟩
  · intro f'
    have hok : f'.status.isError = false := rfl
    obtain ⟨-, hheight, -, hbelow⟩ := (next_stack Sandbox.reverting {} hi).1 hok
    refine ⟨hok, ?_, hbelow⟩
    have hcount : (f'.stack.height : Int) = 2 := hheight
    exact_mod_cast hcount
  · intro few
    have hfew : few.instruction? = some (.call .call) := hi
    exact (next_stack Sandbox.reverting {} hfew).2 (.inl (by decide))

end Evm
