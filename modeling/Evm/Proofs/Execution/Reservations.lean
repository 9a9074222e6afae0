import Evm.Proofs.Execution.Handover
import Evm.Proofs.Frame.Memory
import Evm.Proofs.Gas.Meter

/-!
# Reservations of memory

Every instruction gets its memory from `Exec.reserve`, which pays for what it adds. `Exec.Reserves p
x cost` says what the reservations cost that the program `p` makes from the state `x`. Where the
meter of a frame knows the size and the price of its memory, it does so afterwards, and the price
has gone up by what the reservations have cost, unless there was not enough gas for one
(`Exec.Reserves.accounts`). Besides, an instruction writes to one window of memory at most, its
target (`Exec.tends_next`).
-/

namespace Evm

variable {σ α β : Type}

/-- The memory has the size that the meter takes it to have, and the meter knows its price. -/
structure Frame.Sized (f : Frame) : Prop where
  size : f.memory.size = 32 * f.gas.memory.words
  priced : f.gas.Priced

lemma Frame.sized_start (invocation : Invocation) (gasLimit : Nat) :
    (start invocation gasLimit).Sized :=
  ⟨rfl, Gas.Meter.priced_full gasLimit⟩

/-- The memory is as large as it was, and so is what the meter knows of it. -/
structure Frame.SameSize (f f' : Frame) : Prop where
  size : f'.memory.size = f.memory.size
  gas : f'.gas.memory = f.gas.memory

namespace Exec

variable {w : Window} {p p' : Exec σ α} {q : α → Exec σ β} {x y : Frame × σ} {cost : Nat}

/-! ## What reservations cost -/

/-- From that state the program makes reservations that cost so much in all, and does nothing else
to the size of the memory. -/
inductive Reserves : {α : Type} → Exec σ α → Frame × σ → Nat → Prop
  | none {α : Type} {p : Exec σ α} {x : Frame × σ} (h : x.1.SameSize (p.run x).2.1) :
    Reserves p x 0
  | reserve (start len : Nat) (x : Frame × σ) :
    Reserves (reserve start len) x
      (x.1.gas.remaining - ((reserve start len).run x).2.1.gas.remaining)
  | halt {α β : Type} {p : Exec σ α} {q : α → Exec σ β} {x y : Frame × σ} {status : Status}
    {cost : Nat} (h : Reserves p x cost) (hrun : p.run x = (.error status, y)) :
    Reserves (p >>= q) x cost
  | bind {α β : Type} {p : Exec σ α} {q : α → Exec σ β} {x y : Frame × σ} {a : α}
    {cost cost' : Nat} (h : Reserves p x cost) (hrun : p.run x = (.ok a, y))
    (h' : Reserves (q a) y cost') : Reserves (p >>= q) x (cost + cost')

/-- A reservation finds the memory there, or it grows memory and pays for that, or it runs out of
gas and leaves the memory, but not the meter. -/
lemma reserve_run (start len : Nat) (f : Frame) (s : σ) :
    (reserve start len).run (f, s) =
      match f.gas.expand (Count.words (Count.satAdd start len)) with
      | (gas, .extended) => (.ok (), ({ f with
          gas, memory := f.memory.grow (Count.words (Count.satAdd start len) * 32) }, s))
      | (gas, .same) => (.ok (), ({ f with gas }, s))
      | (gas, .outOfGas) => (.error .memoryOutOfGas, ({ f with gas }, s)) := by
  unfold reserve
  dsimp only
  rw [frame_bind_run]
  rcases f.gas.expand (Count.words (Count.satAdd start len)) with ⟨gas, _ | _ | _⟩ <;> rfl

/-- Unless there is not enough gas for them, reservations cost the price of what they add. -/
lemma Reserves.accounts {p : Exec σ α} (h : Reserves p x cost) (hx : x.1.Sized)
    (hpaid : (p.run x).1 ≠ .error .memoryOutOfGas) :
    (p.run x).2.1.Sized ∧
      Gas.memory x.1.gas.memory.words + cost =
        Gas.memory (p.run x).2.1.gas.memory.words := by
  induction h with
  | none h =>
    refine ⟨⟨?_, ?_⟩, by rw [h.gas, Nat.add_zero]⟩
    · rw [h.size, h.gas]
      exact hx.size
    · unfold Gas.Meter.Priced
      rw [h.gas]
      exact hx.priced
  | reserve start len x =>
    obtain ⟨f, s⟩ := x
    have hrun := reserve_run start len f s
    have hpriced : f.gas.memory.cost = Gas.memory f.gas.memory.words := hx.priced
    have hsize : f.memory.size = 32 * f.gas.memory.words := hx.size
    obtain ⟨-, heq⟩ | ⟨hlt, hle, heq⟩ | ⟨-, -, heq⟩ :=
      f.gas.expand_cases (Count.words (Count.satAdd start len)) <;> rw [heq] at hrun
    · rw [hrun]
      exact ⟨hx, by rw [Nat.sub_self, Nat.add_zero]⟩
    · have hmono := Gas.memory_mono hlt.le
      rw [hrun]
      refine ⟨⟨?_, rfl⟩, ?_⟩
      · rw [Memory.size_grow]
        dsimp only
        omega
      · dsimp only
        omega
    · rw [hrun] at hpaid
      exact absurd rfl hpaid
  | halt h hrun ih =>
    rw [Program.run_bind_error hrun] at hpaid ⊢
    have haccounts := ih hx (by
      rw [hrun]
      exact fun he => hpaid (congrArg Except.error (Except.error.inj he)))
    rwa [hrun] at haccounts
  | bind h hrun h' ih ih' =>
    rw [Program.run_bind_ok hrun] at hpaid ⊢
    have haccounts := ih hx (by
      rw [hrun]
      nofun)
    rw [hrun] at haccounts
    obtain ⟨hy, heq⟩ := haccounts
    obtain ⟨hz, heq'⟩ := ih' hy hpaid
    exact ⟨hz, by rw [← heq', ← heq, Nat.add_assoc]⟩

/-! ## Programs that tend their memory -/

/-- From that state the program writes to the window only, and it grows memory by reservations. -/
def Tends (w : Window) (p : Exec σ α) (x : Frame × σ) : Prop :=
  Memory.Spares w x.1.memory (p.run x).2.1.memory ∧ ∃ cost, Reserves p x cost

namespace Tends

/-- The run leaves the memory and what the meter knows of it. -/
lemma of_eq (hmemory : (p.run x).2.1.memory = x.1.memory)
    (hgas : (p.run x).2.1.gas.memory = x.1.gas.memory) : Tends w p x := by
  refine ⟨?_, 0, .none ⟨congrArg Memory.size hmemory, hgas⟩⟩
  rw [hmemory]
  exact .refl w _

/-- What comes later tends the memory that the earlier program has left. -/
lemma bind (hp : Tends w p x) (hq : ∀ a y, p.run x = (.ok a, y) → Tends w (q a) y) :
    Tends w (p >>= q) x := by
  obtain ⟨hspares, cost, hcost⟩ := hp
  rcases hrun : p.run x with ⟨e | a, y⟩ <;> rw [hrun] at hspares
  · refine ⟨?_, cost, hcost.halt hrun⟩
    rw [Program.run_bind_error hrun]
    exact hspares
  · obtain ⟨hspares', cost', hcost'⟩ := hq a y hrun
    refine ⟨?_, cost + cost', hcost.bind hrun hcost'⟩
    rw [Program.run_bind_ok hrun]
    exact hspares.trans hspares'

lemma ite {c : Prop} [Decidable c] (hp : c → Tends w p x) (hp' : ¬c → Tends w p' x) :
    Tends w (if c then p else p') x := by
  split
  · exact hp ‹_›
  · exact hp' ‹_›

/-- The memory stays as large as it was and is written in the window only. -/
lemma update {g : Frame → Frame} (hsize : x.1.SameSize (g x.1))
    (hspares : Memory.Spares w x.1.memory (g x.1).memory) :
    Tends w (Exec.update g : Exec σ Unit) x :=
  ⟨hspares, 0, .none hsize⟩

end Tends

/-- The program writes nothing to memory, although it may grow it. -/
def OnlyGrows (p : Exec σ α) : Prop := ∀ w x, Tends w p x

namespace OnlyGrows

lemma pure (a : α) : OnlyGrows (Pure.pure a : Exec σ α) := fun _ _ => .of_eq rfl rfl

lemma halt (status : Status) : OnlyGrows (Exec.halt status : Exec σ α) :=
  fun _ _ => .of_eq rfl rfl

lemma bind (hp : OnlyGrows p) (hq : ∀ a, OnlyGrows (q a)) : OnlyGrows (p >>= q) :=
  fun w x => (hp w x).bind fun a y _ => hq a w y

lemma map (hp : OnlyGrows p) (g : α → β) : OnlyGrows (g <$> p) := by
  rw [map_eq_pure_bind]
  exact hp.bind fun _ => .pure _

lemma ite {c : Prop} [Decidable c] (hp : OnlyGrows p) (hp' : OnlyGrows p') :
    OnlyGrows (if c then p else p') := by
  split
  · exact hp
  · exact hp'

lemma frame : OnlyGrows (Exec.frame : Exec σ Frame) := fun _ _ => .of_eq rfl rfl

lemma environment (host : Host σ) : OnlyGrows (Exec.environment host) :=
  fun _ _ => .of_eq rfl rfl

lemma tell (op : StateM σ α) : OnlyGrows (Exec.tell op) := fun _ _ => .of_eq rfl rfl

lemma ask (op : HostM σ α) : OnlyGrows (Exec.ask op) := by
  refine .bind (.tell _) fun a? => ?_
  cases a? with
  | none => exact .halt _
  | some a => exact .pure a

lemma update {g : Frame → Frame} (hmemory : ∀ f : Frame, (g f).memory = f.memory)
    (hgas : ∀ f : Frame, (g f).gas.memory = f.gas.memory) :
    OnlyGrows (Exec.update g : Exec σ Unit) :=
  fun _ x => .of_eq (hmemory x.1) (hgas x.1)

end OnlyGrows

/-! ## Primitive steps -/

lemma onlyGrows_active (eip : Eip) : OnlyGrows (active eip : Exec σ Bool) :=
  .bind .frame fun _ => .pure _

lemma onlyGrows_forbidStatic : OnlyGrows (forbidStatic : Exec σ Unit) :=
  .bind .frame fun _ => .ite (.halt _) (.pure _)

lemma onlyGrows_pop (n : Nat) : OnlyGrows (pop n : Exec σ (Vector Word n)) := by
  refine .bind .frame fun f => ?_
  split
  · exact .halt _
  · exact .bind (.update (fun _ => rfl) fun _ => rfl) fun _ => .pure _

lemma onlyGrows_pop1 : OnlyGrows (pop1 : Exec σ Word) := .bind (onlyGrows_pop 1) fun _ => .pure _

lemma onlyGrows_pop2 : OnlyGrows (pop2 : Exec σ (Word × Word)) :=
  .bind (onlyGrows_pop 2) fun _ => .pure _

lemma onlyGrows_pop3 : OnlyGrows (pop3 : Exec σ (Word × Word × Word)) :=
  .bind (onlyGrows_pop 3) fun _ => .pure _

lemma onlyGrows_pop4 : OnlyGrows (pop4 : Exec σ (Word × Word × Word × Word)) :=
  .bind (onlyGrows_pop 4) fun _ => .pure _

lemma onlyGrows_operands (n : Nat) : OnlyGrows (operands n : Exec σ (Vector Word (n + 1))) := by
  refine .bind .frame fun f => ?_
  split
  · exact .halt _
  · exact .bind (.update (fun _ => rfl) fun _ => rfl) fun _ => .pure _

lemma onlyGrows_operand : OnlyGrows (operand : Exec σ Word) :=
  .bind (onlyGrows_operands 0) fun _ => .pure _

lemma onlyGrows_operands2 : OnlyGrows (operands2 : Exec σ (Word × Word)) :=
  .bind (onlyGrows_operands 1) fun _ => .pure _

lemma onlyGrows_operands3 : OnlyGrows (operands3 : Exec σ (Word × Word × Word)) :=
  .bind (onlyGrows_operands 2) fun _ => .pure _

lemma onlyGrows_push (w : Word) : OnlyGrows (push w : Exec σ Unit) := by
  refine .bind .frame fun f => ?_
  split
  · exact .halt _
  · exact .update (fun _ => rfl) fun _ => rfl

lemma onlyGrows_setTop (w : Word) : OnlyGrows (setTop w : Exec σ Unit) :=
  .update (fun _ => rfl) fun _ => rfl

lemma onlyGrows_charge (cost : Nat) : OnlyGrows (charge cost : Exec σ Unit) := by
  rintro w ⟨f, s⟩
  have hrun := charge_run cost f s
  split at hrun
  · exact .of_eq (by rw [hrun]) (by rw [hrun])
  · exact .of_eq (by rw [hrun]) (by rw [hrun])

lemma onlyGrows_chargePrice (price : Option Nat) :
    OnlyGrows (chargePrice price : Exec σ Unit) := by
  cases price with
  | none => exact .halt _
  | some cost => exact onlyGrows_charge cost

lemma onlyGrows_count (w : Word) (otherwise : Status) :
    OnlyGrows (count w otherwise : Exec σ Nat) := by
  unfold count
  split
  · exact .halt _
  · exact .pure _

/-- A frame whose size is accounted for stays so where the program succeeds. -/
lemma OnlyGrows.sized {a : α} (hp : OnlyGrows p) (hrun : p.run x = (.ok a, y)) (hx : x.1.Sized) :
    y.1.Sized := by
  obtain ⟨-, cost, hcost⟩ := hp {} x
  have hsized := (hcost.accounts hx (by rw [hrun]; nofun)).1
  rwa [hrun] at hsized

lemma OnlyGrows.size_le {a : α} (hp : OnlyGrows p) (hrun : p.run x = (.ok a, y)) :
    x.1.memory.size ≤ y.1.memory.size := by
  have hsize := (hp {} x).1.size_le
  rwa [hrun] at hsize

lemma onlyGrows_reserve (start len : Nat) : OnlyGrows (reserve start len : Exec σ Unit) := by
  rintro w ⟨f, s⟩
  have hrun := reserve_run start len f s
  refine ⟨?_, _, .reserve start len (f, s)⟩
  obtain ⟨-, heq⟩ | ⟨-, -, heq⟩ | ⟨-, -, heq⟩ :=
    f.gas.expand_cases (Count.words (Count.satAdd start len)) <;> rw [heq] at hrun <;> rw [hrun]
  · exact .refl w _
  · exact .grow w _ _
  · exact .refl w _

lemma onlyGrows_readMemory (start : Word) (len : Nat) :
    OnlyGrows (readMemory start len : Exec σ Bytes) :=
  .ite (.pure _) <| .bind (onlyGrows_count _ _) fun _ => .bind (onlyGrows_reserve _ _) fun _ =>
    .bind .frame fun _ => .pure _

/-! ## Instructions that write nothing -/

variable {host : Host σ}

lemma onlyGrows_pushImmediate (size : Nat) : OnlyGrows (pushImmediate size : Exec σ Unit) :=
  .bind .frame fun _ => .bind (onlyGrows_push _) fun _ => .update (fun _ => rfl) fun _ => rfl

lemma onlyGrows_dup (n : Nat) : OnlyGrows (dup n : Exec σ Unit) := by
  refine .bind .frame fun f => ?_
  dsimp only
  split
  · exact .update (fun _ => rfl) fun _ => rfl
  · exact .halt _

lemma onlyGrows_swap (n : Nat) : OnlyGrows (swap n : Exec σ Unit) := by
  refine .bind .frame fun f => ?_
  split
  · exact .update (fun _ => rfl) fun _ => rfl
  · exact .halt _

lemma onlyGrows_jumpTo (target : Word) : OnlyGrows (jumpTo target : Exec σ Unit) :=
  .bind (onlyGrows_count _ _) fun _ => .bind .frame fun _ =>
    .ite (.update (fun _ => rfl) fun _ => rfl) (.halt _)

lemma onlyGrows_jumpSub : OnlyGrows (jumpSub : Exec σ Unit) :=
  .bind onlyGrows_pop1 fun _ => .bind (onlyGrows_count _ _) fun _ => .bind .frame fun _ =>
    .ite (.halt _) (.ite (.halt _) (.update (fun _ => rfl) fun _ => rfl))

lemma onlyGrows_returnSub : OnlyGrows (returnSub : Exec σ Unit) := by
  refine .bind .frame fun f => ?_
  split
  · exact .halt _
  · exact .update (fun _ => rfl) fun _ => rfl

lemma onlyGrows_finish (status : Status) : OnlyGrows (finish status : Exec σ Unit) :=
  .bind onlyGrows_pop2 fun _ => .bind (onlyGrows_count _ _) fun _ =>
    .bind (onlyGrows_readMemory _ _) fun _ =>
      .bind (.update (fun _ => rfl) fun _ => rfl) fun _ => .halt _

lemma onlyGrows_selfDestruct : OnlyGrows (selfDestruct host) := by
  have hend (cost : Nat) : OnlyGrows (do charge cost; halt .selfDestruct : Exec σ Unit) :=
    .bind (onlyGrows_charge cost) fun _ => .halt _
  exact .bind onlyGrows_forbidStatic fun _ => .bind onlyGrows_pop1 fun _ => .bind .frame fun _ =>
    .bind (.ask _) fun _ => .bind .frame fun _ =>
      .ite (.bind (.update (fun _ => rfl) fun _ => rfl) fun _ => hend _) (hend _)

lemma onlyGrows_sstore : OnlyGrows (sstore host) := by
  refine .bind onlyGrows_forbidStatic fun _ => .bind onlyGrows_pop2 fun v =>
    .bind .frame fun f => ?_
  have hstore : OnlyGrows (do
      let write ← ask (host.storeSlot f.address v.1 v.2)
      charge (Gas.slotStore f.features write.value write.isCold)
      update fun f => { f with gas := f.gas.addRefund (Gas.slotRefund f.features write.value) }) :=
    .bind (.ask _) fun _ => .bind (onlyGrows_charge _) fun _ =>
      .update (fun _ => rfl) fun _ => rfl
  exact .ite (.bind (.halt _) fun _ => hstore) hstore

lemma onlyGrows_log (topics : Nat) : OnlyGrows (log host topics) :=
  .bind onlyGrows_forbidStatic fun _ => .bind onlyGrows_pop2 fun _ =>
    .bind (onlyGrows_count _ _) fun _ => .bind (onlyGrows_chargePrice _) fun _ =>
      .bind (onlyGrows_readMemory _ _) fun _ => .bind (onlyGrows_pop _) fun _ =>
        .bind .frame fun _ => .tell _

lemma onlyGrows_initCode (start : Word) (len : Nat) : OnlyGrows (initCode host start len) := by
  have hread : OnlyGrows (do charge (Gas.initCode len); readMemory start len : Exec σ Bytes) :=
    .bind (onlyGrows_charge _) fun _ => onlyGrows_readMemory _ _
  exact .ite (.pure _) <| .bind (onlyGrows_active _) fun _ =>
    .ite (.bind (.environment host) fun _ => .ite (.bind (.halt _) fun _ => hread) hread)
      (onlyGrows_readMemory _ _)

lemma onlyGrows_salt (len : Nat) : OnlyGrows (salt len : Exec σ Word) :=
  .bind onlyGrows_pop1 fun _ => .bind (onlyGrows_chargePrice _) fun _ => .pure _

lemma onlyGrows_grantToCreation : OnlyGrows (grantToCreation : Exec σ Nat) :=
  .bind .frame fun _ => .bind (onlyGrows_active _) fun _ => .bind (onlyGrows_charge _) fun _ =>
    .pure _

lemma onlyGrows_prepareCreate (salted : Bool) : OnlyGrows (prepareCreate host salted) := by
  have hgrant (salt? : Option Word) (value : Word) (initCode : Bytes) : OnlyGrows (do
      let gasLimit ← grantToCreation
      return { caller := (← frame).address, salt?, value, initCode, gasLimit } :
        Exec σ CreateRequest) :=
    .bind onlyGrows_grantToCreation fun _ => .bind .frame fun _ => .pure _
  exact .bind onlyGrows_forbidStatic fun _ => .bind onlyGrows_pop3 fun _ =>
    .bind (onlyGrows_count _ _) fun len => .bind (onlyGrows_initCode _ _) fun _ =>
      .ite (.bind ((onlyGrows_salt len).map _) fun _ => hgrant _ _ _)
        (.bind (.pure _) fun _ => hgrant _ _ _)

lemma onlyGrows_settleCreate (response : CreateResponse) :
    OnlyGrows (settleCreate response : Exec σ Unit) :=
  .bind (.update (fun _ => rfl) fun _ => rfl) fun _ =>
    .ite (.bind (onlyGrows_push _) fun _ => .update (fun _ => rfl) fun _ => rfl) <|
      .ite (.bind (onlyGrows_push _) fun _ => .update (fun _ => rfl) fun _ => rfl) <|
        .ite (.halt _) (onlyGrows_push _)

lemma onlyGrows_create (salted : Bool) : OnlyGrows (create host salted) := by
  rw [create_eq]
  exact .bind (onlyGrows_prepareCreate salted) fun _ => .bind (.tell _) fun _ =>
    onlyGrows_settleCreate _

lemma onlyGrows_callOperands (scheme : CallScheme) :
    OnlyGrows (callOperands scheme : Exec σ (Word × Address × Word)) :=
  .ite (.bind onlyGrows_pop3 fun _ => .pure _) (.bind onlyGrows_pop2 fun _ => .pure _)

lemma onlyGrows_callWindows : OnlyGrows (callWindows : Exec σ (Bytes × Window)) :=
  .bind onlyGrows_pop4 fun _ => .bind (onlyGrows_count _ _) fun _ =>
    .bind (onlyGrows_readMemory _ _) fun _ => .bind (onlyGrows_count _ _) fun _ =>
      .ite (.pure _) <| .bind (onlyGrows_count _ _) fun _ => .bind (onlyGrows_reserve _ _) fun _ =>
        .pure _

lemma onlyGrows_callGrant (scheme : CallScheme) (callee : Address) (movesValue : Bool)
    (requested : Nat) : OnlyGrows (callGrant host scheme callee movesValue requested) :=
  .bind (.ask _) fun _ => .bind .frame fun _ => .bind (onlyGrows_charge _) fun _ =>
    .ite (.bind .frame fun _ => .pure _) (.pure _)

lemma onlyGrows_openCall (scheme : CallScheme) (v : Word × Address × Word) :
    OnlyGrows (openCall host scheme v) :=
  .bind onlyGrows_callWindows fun _ => .bind (onlyGrows_callGrant _ _ _ _) fun _ =>
    .bind (onlyGrows_charge _) fun _ => .bind .frame fun _ => .pure _

lemma onlyGrows_prepareCall (scheme : CallScheme) : OnlyGrows (prepareCall host scheme) := by
  refine .bind (onlyGrows_callOperands scheme) fun v => ?_
  have hrest : OnlyGrows (openCall host scheme v) := onlyGrows_openCall scheme v
  exact .ite (.bind .frame fun _ => .ite (.bind (.halt _) fun _ => hrest) hrest) hrest

end Exec

/-! ## Instructions that write -/

/-- The instruction may write to memory. -/
def Instruction.writes : Instruction → Bool
  | .mstore | .mstore8 | .mcopy | .copy _ | .extCodeCopy | .call _ => true
  | _ => false

/-- The memory that the instruction writes to, by its operands. -/
def Instruction.target (f : Frame) : Instruction → Window
  | .mstore => ⟨(f.word 0).toNat, 32⟩
  | .mstore8 => ⟨(f.word 0).toNat, 1⟩
  | .mcopy | .copy _ => ⟨(f.word 0).toNat, (f.word 2).toNat⟩
  | .extCodeCopy => ⟨(f.word 1).toNat, (f.word 3).toNat⟩
  | .call .call | .call .callCode => ⟨(f.word 5).toNat, (f.word 6).toNat⟩
  | .call .delegateCall | .call .staticCall => ⟨(f.word 4).toNat, (f.word 5).toNat⟩
  | _ => {}

namespace Exec

variable {w : Window} {x y : Frame × σ} {host : Host σ}

lemma tends_mstore : Tends ⟨(x.1.word 0).toNat, 32⟩ mstore x := by
  refine (onlyGrows_pop2 _ x).bind fun v y hpop => ?_
  obtain ⟨rfl, -⟩ := pop2_eq_ok hpop
  refine (onlyGrows_count _ _ _ y).bind fun start y hcount => ?_
  obtain ⟨rfl, -⟩ := count_eq_ok hcount
  refine (onlyGrows_reserve _ _ _ y).bind fun _ y _ => ?_
  refine .update ⟨Memory.size_write _ _ _, rfl⟩ (.write fun j hle hlt => ⟨hle, ?_⟩)
  rwa [Bytes.ofWord, Bytes.size_ofNat] at hlt

lemma tends_mstore8 : Tends ⟨(x.1.word 0).toNat, 1⟩ mstore8 x := by
  refine (onlyGrows_pop2 _ x).bind fun v y hpop => ?_
  obtain ⟨rfl, -⟩ := pop2_eq_ok hpop
  refine (onlyGrows_count _ _ _ y).bind fun start y hcount => ?_
  obtain ⟨rfl, -⟩ := count_eq_ok hcount
  refine (onlyGrows_reserve _ _ _ y).bind fun _ y _ => ?_
  exact .update ⟨Memory.size_writeByte _ _ _, rfl⟩ (.writeByte _ ⟨le_rfl, Nat.lt_succ_self _⟩)

lemma tends_mcopy : Tends ⟨(x.1.word 0).toNat, (x.1.word 2).toNat⟩ mcopy x := by
  refine (onlyGrows_pop3 _ x).bind fun v y hpop => ?_
  obtain ⟨rfl, -⟩ := pop3_eq_ok hpop
  refine (onlyGrows_count _ _ _ y).bind fun len y hcount => ?_
  obtain ⟨rfl, -⟩ := count_eq_ok hcount
  refine (onlyGrows_chargePrice _ _ y).bind fun _ y _ => ?_
  refine .ite (fun _ => ?_) fun _ => OnlyGrows.pure _ _ y
  refine (onlyGrows_count _ _ _ y).bind fun dst y hcount => ?_
  obtain ⟨rfl, -⟩ := count_eq_ok hcount
  refine (onlyGrows_count _ _ _ y).bind fun src y _ => ?_
  refine (onlyGrows_reserve _ _ _ y).bind fun _ y _ => ?_
  refine .update ⟨Memory.size_write _ _ _, rfl⟩ (.write fun j hle hlt => ⟨hle, hlt.trans_le ?_⟩)
  have hread : (y.1.memory.read src (x.1.word 2).toNat).size ≤ (x.1.word 2).toNat := by
    rw [Memory.read, Array.size_extract]
    omega
  exact Nat.add_le_add_left hread _

lemma tends_copyToMemory (dst srcStart : Word) (len : Nat) (src : Bytes) :
    Tends ⟨dst.toNat, len⟩ (copyToMemory dst srcStart len src) x := by
  refine .ite (fun _ => ?_) fun _ => OnlyGrows.pure _ _ x
  refine (onlyGrows_count _ _ _ x).bind fun dst y hcount => ?_
  obtain ⟨rfl, -⟩ := count_eq_ok hcount
  refine (onlyGrows_reserve _ _ _ y).bind fun _ y _ => ?_
  refine .update ⟨Memory.size_write _ _ _, rfl⟩ (.write fun j hle hlt => ⟨hle, ?_⟩)
  rwa [Bytes.size_window] at hlt

lemma tends_copy (source : CopySource) :
    Tends ⟨(x.1.word 0).toNat, (x.1.word 2).toNat⟩ (copy source) x := by
  have hoperands (q : Word → Word → Nat → Exec σ Unit)
      (hq : ∀ dst src len y, Tends ⟨dst.toNat, len⟩ (q dst src len) y) :
      Tends ⟨(x.1.word 0).toNat, (x.1.word 2).toNat⟩ (do
        let v ← pop3
        let len ← count v.2.2
        chargePrice (Gas.copy len)
        q v.1 v.2.1 len) x := by
    refine (onlyGrows_pop3 _ x).bind fun v y hpop => ?_
    obtain ⟨rfl, -⟩ := pop3_eq_ok hpop
    refine (onlyGrows_count _ _ _ y).bind fun len y hcount => ?_
    obtain ⟨rfl, -⟩ := count_eq_ok hcount
    exact (onlyGrows_chargePrice _ _ y).bind fun _ y _ => hq _ _ _ y
  cases source with
  | callData =>
    exact hoperands (fun dst src len => do copyToMemory dst src len (← frame).input)
      fun _ _ _ y => (OnlyGrows.frame _ y).bind fun _ _ _ => tends_copyToMemory _ _ _ _
  | code =>
    exact hoperands (fun dst src len => do copyToMemory dst src len (← frame).code.bytes)
      fun _ _ _ y => (OnlyGrows.frame _ y).bind fun _ _ _ => tends_copyToMemory _ _ _ _
  | returnData =>
    refine hoperands (fun dst src len => do
      let data := (← frame).returnData
      if data.size < Count.satAdd src.toCount len then halt .outOfOffset
      copyToMemory dst src len data) fun _ _ _ y => (OnlyGrows.frame _ y).bind fun f y _ => ?_
    exact .ite (fun _ => (OnlyGrows.halt _ _ y).bind fun _ _ _ => tends_copyToMemory _ _ _ _)
      fun _ => tends_copyToMemory _ _ _ _

lemma tends_extCodeCopy : Tends ⟨(x.1.word 1).toNat, (x.1.word 3).toNat⟩ (extCodeCopy host) x := by
  refine (onlyGrows_pop4 _ x).bind fun v y hpop => ?_
  obtain ⟨rfl, -⟩ := pop4_eq_ok hpop
  refine (OnlyGrows.ask _ _ y).bind fun code y _ => ?_
  refine (onlyGrows_count _ _ _ y).bind fun len y hcount => ?_
  obtain ⟨rfl, -⟩ := count_eq_ok hcount
  refine (OnlyGrows.frame _ y).bind fun f y _ => ?_
  exact (onlyGrows_chargePrice _ _ y).bind fun _ y _ => tends_copyToMemory _ _ _ _

lemma tends_storeOutput (out : Window) (output : Bytes) : Tends out (storeOutput out output) x := by
  have hsize : (output.extract 0 (Nat.min out.size output.size)).size ≤ out.size := by
    rw [Array.size_extract]
    exact ((Nat.sub_le _ _).trans (Nat.min_le_left _ _)).trans (Nat.min_le_left _ _)
  refine .update ⟨Memory.size_write _ _ _, rfl⟩ (.write fun j hle hlt => ⟨hle, hlt.trans_le ?_⟩)
  exact Nat.add_le_add_left hsize _

lemma tends_settleCall (response : CallResponse) :
    Tends response.out (settleCall response) x := by
  have hstore (w : Word) (y : Frame × σ) : Tends response.out
      (do storeOutput response.out response.outcome.output; push w : Exec σ Unit) y :=
    (tends_storeOutput _ _).bind fun _ y _ => onlyGrows_push w _ y
  refine Tends.bind (.update ⟨rfl, rfl⟩ (.refl _ _)) fun _ y _ => .ite (fun _ => ?_) fun _ =>
    .ite (fun _ => ?_) fun _ => .ite (fun _ => OnlyGrows.halt _ _ y) fun _ => onlyGrows_push _ _ y
  · exact Tends.bind (.update ⟨rfl, rfl⟩ (.refl _ _)) fun _ y _ => hstore 1 y
  · exact Tends.bind (.update ⟨rfl, rfl⟩ (.refl _ _)) fun _ y _ => hstore 0 y

/-- A call writes where the answer of the host says that the output goes. -/
lemma tends_call {scheme : CallScheme}
    (h : ∀ request f s, (prepareCall host scheme).run x = (.ok request, (f, s)) →
      (host.call request s).1.out = w) :
    Tends w (call host scheme) x := by
  rw [call_eq]
  refine (onlyGrows_prepareCall scheme w x).bind fun request y hprepare => ?_
  obtain ⟨f, s⟩ := y
  have hout := h request f s hprepare
  refine (OnlyGrows.tell _ w (f, s)).bind fun response y htell => ?_
  cases htell
  exact hout ▸ tends_settleCall _

/-! ## The next instruction -/

lemma onlyGrows_fetch : OnlyGrows (fetch : Exec σ Instruction) := by
  refine .bind .frame fun f => ?_
  split
  · exact .halt _
  · exact .ite (.bind (onlyGrows_charge _) fun _ =>
      .bind (.update (fun _ => rfl) fun _ => rfl) fun _ => .pure _) (.halt _)

end Exec

/-- The memory that the next instruction writes to: for a call where the answer of the host says
that the output goes, and otherwise what its operands say. -/
def Host.target (host : Host σ) (x : Frame × σ) : Window :=
  match (Exec.errand host).run x with
  | (.ok (some (.call request)), (_, s)) => (host.call request s).1.out
  | _ => (x.1.instruction?.map (·.target x.1)).getD {}

namespace Exec

variable {x y : Frame × σ} {host : Host σ}

lemma onlyGrows_instruction {i : Instruction} (h : i.writes = false) :
    OnlyGrows (i.run host) := by
  cases i with
  | stop => exact .halt _
  | unary op => exact .bind onlyGrows_operand fun _ => onlyGrows_setTop _
  | binary op => exact .bind onlyGrows_operands2 fun _ => onlyGrows_setTop _
  | ternary op => exact .bind onlyGrows_operands3 fun _ => onlyGrows_setTop _
  | exp =>
    exact .bind onlyGrows_operands2 fun _ => .bind .frame fun _ =>
      .bind (onlyGrows_chargePrice _) fun _ => onlyGrows_setTop _
  | keccak256 =>
    exact .bind onlyGrows_operands2 fun _ => .bind (onlyGrows_count _ _) fun _ =>
      .bind (onlyGrows_chargePrice _) fun _ => .bind (onlyGrows_readMemory _ _) fun _ =>
        onlyGrows_setTop _
  | frameField field => exact .bind .frame fun _ => onlyGrows_push _
  | envField field =>
    exact .bind .frame fun _ => .bind (.environment host) fun _ => onlyGrows_push _
  | accountField field =>
    exact .bind onlyGrows_operand fun _ => .bind (.ask _) fun _ => .bind .frame fun _ =>
      .bind (onlyGrows_charge _) fun _ => onlyGrows_setTop _
  | selfBalance => exact .bind .frame fun _ => .bind (.ask _) fun _ => onlyGrows_push _
  | callDataLoad =>
    exact .bind onlyGrows_operand fun _ => .bind .frame fun _ => onlyGrows_setTop _
  | blockHash =>
    exact .bind onlyGrows_operand fun _ => .bind (.environment host) fun _ => onlyGrows_setTop _
  | blobHash =>
    exact .bind onlyGrows_operand fun _ => .bind (.environment host) fun _ => onlyGrows_setTop _
  | pop => exact (onlyGrows_pop 1).map _
  | mload =>
    exact .bind onlyGrows_operand fun _ => .bind (onlyGrows_count _ _) fun _ =>
      .bind (onlyGrows_reserve _ _) fun _ => .bind .frame fun _ => onlyGrows_setTop _
  | sload =>
    exact .bind onlyGrows_operand fun _ => .bind .frame fun _ => .bind (.ask _) fun _ =>
      .bind .frame fun _ => .bind (onlyGrows_charge _) fun _ => onlyGrows_setTop _
  | sstore => exact onlyGrows_sstore
  | tload =>
    exact .bind onlyGrows_operand fun _ => .bind .frame fun _ => .bind (.tell _) fun _ =>
      onlyGrows_setTop _
  | tstore =>
    exact .bind onlyGrows_forbidStatic fun _ => .bind onlyGrows_pop2 fun _ =>
      .bind .frame fun _ => .tell _
  | jump => exact .bind onlyGrows_pop1 fun _ => onlyGrows_jumpTo _
  | jumpI => exact .bind onlyGrows_pop2 fun _ => .ite (onlyGrows_jumpTo _) (.pure _)
  | jumpDest => exact .pure _
  | beginSub => exact .halt _
  | returnSub => exact onlyGrows_returnSub
  | jumpSub => exact onlyGrows_jumpSub
  | push size => exact onlyGrows_pushImmediate size
  | dup depth => exact onlyGrows_dup depth
  | swap depth => exact onlyGrows_swap depth
  | log topics => exact onlyGrows_log topics
  | create salted => exact onlyGrows_create salted
  | ret => exact onlyGrows_finish _
  | revert => exact onlyGrows_finish _
  | invalid => exact .halt _
  | selfDestruct => exact onlyGrows_selfDestruct
  | _ => contradiction

/-- Instructions other than calls write where their operands say. -/
lemma tends_instruction {i : Instruction} (h : ∀ scheme, i ≠ .call scheme) :
    Tends (i.target x.1) (i.run host) x := by
  cases i with
  | copy source => exact tends_copy source
  | extCodeCopy => exact tends_extCodeCopy
  | mstore => exact tends_mstore
  | mstore8 => exact tends_mstore8
  | mcopy => exact tends_mcopy
  | call scheme => exact absurd rfl (h scheme)
  | _ => exact onlyGrows_instruction rfl _ x

/-- The next instruction writes to its target only. -/
lemma tends_next (host : Host σ) (x : Frame × σ) : Tends (host.target x) (next host) x := by
  rw [next_eq]
  refine (onlyGrows_fetch _ x).bind fun i y hfetch => ?_
  -- The operands of a call are not its target: they only say what the host is asked for.
  by_cases hcall : ∃ scheme, i = .call scheme
  · obtain ⟨scheme, rfl⟩ := hcall
    refine tends_call fun request f s hprepare => ?_
    unfold Host.target
    rw [errand_run_call hfetch hprepare]
  · have hnot (scheme : CallScheme) : i ≠ .call scheme := fun heq => hcall ⟨scheme, heq⟩
    obtain ⟨hi, hstack, -⟩ := fetch_eq_ok hfetch
    have htarget : host.target x = i.target y.1 := by
      have hword : y.1.word = x.1.word := by
        unfold Frame.word
        rw [hstack]
      unfold Host.target
      split
      · rename_i request z s herrand
        obtain ⟨scheme, z, hfetch', -⟩ := errand_eq_call herrand
        exact absurd (Except.ok.inj (Prod.mk.inj (hfetch.symm.trans hfetch')).1) (hnot scheme)
      · rw [hi]
        unfold Instruction.target
        rw [hword]
        rfl
    rw [htarget]
    exact tends_instruction hnot

end Exec

end Evm
