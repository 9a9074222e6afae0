import Evm.Host.Sandbox
import Evm.Proofs.Execution.Reservations
import Evm.Proofs.Execution.Termination

/-!
# The memory of a frame

The size of memory is kept twice, in the memory and on the meter, and the two agree until a frame
halts exceptionally; what the frame has paid for memory is then the price of that size, however the
memory has been reserved. Growing changes no byte, and a step writes to its target only, so a byte
is zero until a step has it in its target (`Host.steps_memory`). A reservation that succeeds makes
the bytes usable that were asked for (`Exec.reserve_covers`).
-/

namespace Evm

variable {σ : Type} {host : Host σ}

/-! ## Performing a program -/

namespace Exec

variable (p : Exec σ Unit) (x : Frame × σ)

/-- The status is all that a frame is told of a failure. -/
lemma perform_frame : ∃ status, (p.perform x).1 = { (p.run x).2.1 with status } := by
  unfold perform
  rcases p.run x with ⟨status | _, f, s⟩
  · exact ⟨status, rfl⟩
  · exact ⟨f.status, rfl⟩

lemma perform_memory : (p.perform x).1.memory = (p.run x).2.1.memory := by
  obtain ⟨status, hframe⟩ := perform_frame p x
  rw [hframe]

lemma run_ne_error {status : Status} (h : (p.perform x).1.status ≠ status) :
    (p.run x).1 ≠ .error status := by
  intro he
  have hrun : p.run x = (.error status, (p.run x).2) := Prod.ext he rfl
  unfold perform at h
  rw [hrun] at h
  exact h rfl

end Exec

namespace Host

/-! ## Steps -/

/-- The host looks at frames before and after a step, and it may stop them before. -/
structure Oversees (host : Host σ) : Prop where
  beforeStep : ∀ f s, ∃ status, (host.beforeStep f s).1 = { f with status }
  afterStep : ∀ f s, (host.afterStep f s).1 = f

/-- The reservations of the step cost so much. A step that is not taken makes none. -/
def StepReserves (host : Host σ) (x : Frame × σ) (cost : Nat) : Prop :=
  let y := host.beforeStep x.1 x.2
  if y.1.isRunning then Exec.Reserves (Exec.next host) y cost else cost = 0

/-- The memory that the step writes to. -/
def stepTarget (host : Host σ) (x : Frame × σ) : Window := host.target (host.beforeStep x.1 x.2)

lemma exists_stepReserves (host : Host σ) (x : Frame × σ) : ∃ cost, host.StepReserves x cost := by
  unfold StepReserves
  dsimp only
  split
  · exact (Exec.tends_next host _).2
  · exact ⟨0, rfl⟩

variable {x : Frame × σ}

lemma Oversees.before (h : host.Oversees) (x : Frame × σ) :
    (host.beforeStep x.1 x.2).1.memory = x.1.memory ∧
      (host.beforeStep x.1 x.2).1.gas = x.1.gas := by
  obtain ⟨status, hbefore⟩ := h.beforeStep x.1 x.2
  exact ⟨by rw [hbefore], by rw [hbefore]⟩

/-- A step performs the next instruction, unless the host has stopped the frame. -/
lemma Oversees.step (h : host.Oversees) (x : Frame × σ) :
    (host.step x.1 x.2).1 =
      if (host.beforeStep x.1 x.2).1.isRunning then
        ((Exec.next host).perform (host.beforeStep x.1 x.2)).1
      else (host.beforeStep x.1 x.2).1 := by
  unfold Host.step
  generalize host.beforeStep x.1 x.2 = y
  obtain ⟨f, s⟩ := y
  dsimp only
  split
  · exact h.afterStep _ _
  · rfl

/-- A step writes to its target only. -/
lemma spares_step (h : host.Oversees) (x : Frame × σ) :
    Memory.Spares (host.stepTarget x) x.1.memory (host.step x.1 x.2).1.memory := by
  rw [h.step, ← (h.before x).1]
  split
  · rw [Exec.perform_memory]
    exact (Exec.tends_next host _).1
  · exact .refl _ _

/-- A step that has gas enough for its memory pays the price of what it adds. -/
lemma StepReserves.accounts (h : host.Oversees) {cost : Nat} (hcost : host.StepReserves x cost)
    (hx : x.1.Sized) (hstatus : (host.step x.1 x.2).1.status ≠ .memoryOutOfGas) :
    (host.step x.1 x.2).1.Sized ∧
      Gas.memory x.1.gas.memory.words + cost =
        Gas.memory (host.step x.1 x.2).1.gas.memory.words := by
  obtain ⟨hmemory, hgas⟩ := h.before x
  have hy : (host.beforeStep x.1 x.2).1.Sized :=
    ⟨by rw [hmemory, hgas]; exact hx.size, by rw [hgas]; exact hx.priced⟩
  rw [h.step] at hstatus ⊢
  unfold StepReserves at hcost
  dsimp only at hcost
  rw [← hgas]
  split_ifs at hstatus hcost ⊢
  · obtain ⟨hsized, heq⟩ := hcost.accounts hy (Exec.run_ne_error _ _ hstatus)
    obtain ⟨status, hframe⟩ := Exec.perform_frame (Exec.next host) (host.beforeStep x.1 x.2)
    rw [hframe]
    exact ⟨⟨hsized.size, hsized.priced⟩, heq⟩
  · rw [hcost, Nat.add_zero]
    exact ⟨hy, rfl⟩

/-! ## Runs -/

lemma steps_of_isRunning (hx : x.1.isRunning = true) (fuel : Nat) :
    host.steps (fuel + 1) x.1 x.2 =
      host.steps fuel (host.step x.1 x.2).1 (host.step x.1 x.2).2 := by
  rw [steps, if_pos hx]

/-- One more step is taken at the end. -/
lemma steps_succ (host : Host σ) (fuel : Nat) (f : Frame) (s : σ) :
    host.steps (fuel + 1) f s =
      if (host.steps fuel f s).1.isRunning then
        host.step (host.steps fuel f s).1 (host.steps fuel f s).2
      else host.steps fuel f s := by
  induction fuel generalizing f s with
  | zero => rfl
  | succ fuel ih =>
    cases hrunning : f.isRunning with
    | false => simp only [steps_of_not_running hrunning, hrunning, Bool.false_eq_true, if_false]
    | true =>
      have hstep (n : Nat) :
          host.steps (n + 1) f s = host.steps n (host.step f s).1 (host.step f s).2 :=
        steps_of_isRunning (x := (f, s)) hrunning n
      rw [hstep (fuel + 1), hstep fuel]
      exact ih _ _

variable {f : Frame} {s : σ}

lemma spares_steps_succ (h : host.Oversees) (fuel : Nat) (f : Frame) (s : σ) :
    Memory.Spares (host.stepTarget (host.steps fuel f s)) (host.steps fuel f s).1.memory
      (host.steps (fuel + 1) f s).1.memory := by
  rw [steps_succ]
  split
  · exact spares_step h _
  · exact .refl _ _

/-- A byte that no step has had in its target is as it was. -/
lemma byte_steps (h : host.Oversees) {fuel j : Nat}
    (hj : ∀ n < fuel, j ∉ host.stepTarget (host.steps n f s)) :
    (host.steps fuel f s).1.memory.byte j = f.memory.byte j := by
  induction fuel with
  | zero => rfl
  | succ fuel ih =>
    rw [(spares_steps_succ h fuel f s).byte j (hj fuel (Nat.lt_succ_self _))]
    exact ih fun n hn => hj n (hn.trans (Nat.lt_succ_self _))

/-- The reservations that the frame makes in its steps, of which it takes at most so many, cost so
much in all. -/
inductive StepsReserve (host : Host σ) : Nat → Frame × σ → Nat → Prop
  | zero {x : Frame × σ} : StepsReserve host 0 x 0
  | halted {fuel : Nat} {x : Frame × σ} (hx : x.1.isRunning = false) :
    StepsReserve host (fuel + 1) x 0
  | step {fuel cost cost' : Nat} {x : Frame × σ} (hx : x.1.isRunning = true)
    (hcost : host.StepReserves x cost)
    (hcost' : StepsReserve host fuel (host.step x.1 x.2) cost') :
    StepsReserve host (fuel + 1) x (cost + cost')

lemma exists_stepsReserve (host : Host σ) (fuel : Nat) (x : Frame × σ) :
    ∃ cost, host.StepsReserve fuel x cost := by
  induction fuel generalizing x with
  | zero => exact ⟨0, .zero⟩
  | succ fuel ih =>
    cases hx : x.1.isRunning with
    | false => exact ⟨0, .halted hx⟩
    | true =>
      obtain ⟨cost, hcost⟩ := host.exists_stepReserves x
      obtain ⟨cost', hcost'⟩ := ih (host.step x.1 x.2)
      exact ⟨cost + cost', .step hx hcost hcost'⟩

/-- A run that has gas enough for its memory pays the price of what it adds. -/
lemma StepsReserve.accounts (h : host.Oversees) {fuel cost : Nat} {x : Frame × σ}
    (hcost : host.StepsReserve fuel x cost) (hx : x.1.Sized)
    (hstatus : (host.steps fuel x.1 x.2).1.status ≠ .memoryOutOfGas) :
    (host.steps fuel x.1 x.2).1.Sized ∧
      Gas.memory x.1.gas.memory.words + cost =
        Gas.memory (host.steps fuel x.1 x.2).1.gas.memory.words := by
  induction hcost with
  | zero => exact ⟨hx, rfl⟩
  | halted hhalted =>
    rw [steps_of_not_running hhalted]
    exact ⟨hx, rfl⟩
  | @step fuel cost cost' x hrunning hcost _ ih =>
    rw [steps_of_isRunning hrunning] at hstatus ⊢
    -- A frame that has run out of gas for memory takes no more steps.
    have hstep : (host.step x.1 x.2).1.status ≠ .memoryOutOfGas := by
      intro hhalted
      have hnot : (host.step x.1 x.2).1.isRunning = false := by
        rw [Frame.isRunning, hhalted]
        rfl
      rw [steps_of_not_running hnot] at hstatus
      exact hstatus hhalted
    obtain ⟨hsized, heq⟩ := hcost.accounts h hx hstep
    obtain ⟨hsized', heq'⟩ := ih hsized hstatus
    exact ⟨hsized', by rw [← heq', ← heq, Nat.add_assoc]⟩

/-- Memory is accounted for. Until a frame halts exceptionally, the size of its memory is the one
that the meter takes it to have, the meter knows the price of that, and this price is what the frame
has paid for memory since it started. No step shrinks the memory; a step changes bytes of its target
only, and bytes that have been in the target of no step are zero. -/
theorem steps_memory (h : host.Oversees) (invocation : Invocation) (gasLimit fuel : Nat) (s : σ) :
    let x n := host.steps n (Frame.start invocation gasLimit) s
    let f := (x fuel).1
    let f' := (x (fuel + 1)).1
    (f.status.isError = false →
      f.memory.size = 32 * f.gas.memory.words ∧
      f.gas.memory.cost = Gas.memory f.gas.memory.words ∧
      ∀ cost, host.StepsReserve fuel (Frame.start invocation gasLimit, s) cost ↔
        cost = Gas.memory f.gas.memory.words) ∧
    f.memory.size ≤ f'.memory.size ∧
    (∀ j ∉ host.stepTarget (x fuel), f'.memory.byte j = f.memory.byte j) ∧
    ∀ j, (∀ n < fuel, j ∉ host.stepTarget (x n)) → f.memory.byte j = 0 := by
  intro x f f'
  have hspares := spares_steps_succ h fuel (Frame.start invocation gasLimit) s
  refine ⟨fun hok => ?_, hspares.size_le, hspares.byte, fun j hj => byte_steps h hj⟩
  have hstatus : f.status ≠ .memoryOutOfGas := by
    intro hhalted
    rw [hhalted] at hok
    contradiction
  have haccounts (cost : Nat)
      (hcost : host.StepsReserve fuel (Frame.start invocation gasLimit, s) cost) :
      f.Sized ∧ cost = Gas.memory f.gas.memory.words := by
    obtain ⟨hsized, heq⟩ := hcost.accounts h (Frame.sized_start invocation gasLimit) hstatus
    have hzero : Gas.memory (Frame.start invocation gasLimit).gas.memory.words = 0 :=
      Gas.memory_zero
    rw [hzero, Nat.zero_add] at heq
    exact ⟨hsized, heq⟩
  obtain ⟨cost, hcost⟩ := host.exists_stepsReserve fuel (Frame.start invocation gasLimit, s)
  obtain ⟨hsized, heq⟩ := haccounts cost hcost
  exact ⟨hsized.size, hsized.priced, fun cost' =>
    ⟨fun hcost' => (haccounts cost' hcost').2, fun heq' => heq' ▸ heq ▸ hcost⟩⟩

end Host

lemma Sandbox.oversees_host : Sandbox.host.Oversees :=
  ⟨fun f _ => ⟨f.status, rfl⟩, fun _ _ => rfl⟩

/-- Code that stores a byte at 33. -/
def Invocation.storing : Invocation where
  code := .ofHashed #[0x60, 0xff, 0x60, 0x21, 0x53] 0
  features := .empty

/-- Storing a byte in the second word of memory makes two words, for 6 gas, and leaves the first one
zero. -/
theorem Sandbox.steps_storing :
    Sandbox.host.Oversees ∧
      let x n := Sandbox.host.steps n (Frame.start .storing 100) {}
      (x 3).1.status.isError = false ∧ (x 3).1.memory.size = 64 ∧
        Sandbox.host.StepsReserve 3 (Frame.start .storing 100, {}) 6 ∧
        (x 3).1.memory.byte 5 = 0 := by
  have hmemory := Host.steps_memory Sandbox.oversees_host .storing 100 3 {}
  have hstatus : (Sandbox.host.steps 3 (Frame.start .storing 100) {}).1.status.isError = false := by
    decide +kernel
  have hwords : (Sandbox.host.steps 3 (Frame.start .storing 100) {}).1.gas.memory.words = 2 := by
    decide +kernel
  have htarget : ∀ n < 3,
      5 ∉ Sandbox.host.stepTarget (Sandbox.host.steps n (Frame.start .storing 100) {}) := by
    decide +kernel
  dsimp only at hmemory ⊢
  generalize Sandbox.host.steps 3 (Frame.start .storing 100) {} = x at hmemory hstatus hwords ⊢
  obtain ⟨haccounts, -, -, hbyte⟩ := hmemory
  obtain ⟨hsize, -, hcost⟩ := haccounts hstatus
  rw [hwords] at hsize hcost
  exact ⟨Sandbox.oversees_host, hstatus, hsize, (hcost 6).2 (by decide), hbyte 5 htarget⟩

/-! ## What is reserved -/

/-- The largest size that memory can be asked to have. -/
def Memory.limit : Nat := Count.max / 32 * 32

/-- The words that hold some bytes are rounded up. -/
lemma Count.words_satAdd {start len : Nat} (h : start + len ≤ Memory.limit) :
    Count.words (Count.satAdd start len) = (start + len + 31) / 32 := by
  unfold Memory.limit at h
  have hsum : Count.satAdd start len = start + len := Count.satAdd_eq (by omega)
  have hround : Count.satAdd (start + len) 31 = start + len + 31 :=
    Count.satAdd_eq (by unfold Count.max at *; omega)
  rw [Count.words, hsum, hround]

namespace Exec

variable {f f' : Frame} {s s' : σ} {start len : Nat}

/-- The size of a reservation that succeeds counts as reached. -/
lemma words_le_of_reserve (hrun : (reserve start len).run (f, s) = (.ok (), (f', s'))) :
    Count.words (Count.satAdd start len) ≤ f'.gas.memory.words := by
  rw [reserve_run] at hrun
  obtain ⟨hle, heq⟩ | ⟨-, -, heq⟩ | ⟨-, -, heq⟩ :=
    f.gas.expand_cases (Count.words (Count.satAdd start len)) <;> rw [heq] at hrun <;> cases hrun
  · exact hle
  · exact le_rfl

/-- A reservation that succeeds covers what was asked for. The bytes are there, unless they end past
the largest size that can be asked for; and what the frame has paid for memory in all, which the
reservation adds to, is no less than the price of the words up to the end of those bytes, as long as
there are fewer than 2 ^ 32 of them. -/
theorem reserve_covers (hf : f.Sized)
    (hrun : (reserve start len).run (f, s) = (.ok (), (f', s'))) :
    let words := (start + len + 31) / 32
    (start + len ≤ Memory.limit → start + len ≤ f'.memory.size) ∧
    f'.gas.memory.cost = f.gas.memory.cost + (f.gas.remaining - f'.gas.remaining) ∧
    (words < 2 ^ 32 → 3 * words + words * words / 512 ≤ f'.gas.memory.cost) := by
  intro words
  have haccounts := (Reserves.reserve start len (f, s)).accounts hf (by rw [hrun]; nofun)
  rw [hrun] at haccounts
  obtain ⟨hf', hpaid⟩ := haccounts
  have hsize : f'.memory.size = 32 * f'.gas.memory.words := hf'.size
  have hcost : f.gas.memory.cost = Gas.memory f.gas.memory.words := hf.priced
  have hcost' : f'.gas.memory.cost = Gas.memory f'.gas.memory.words := hf'.priced
  have hreached := words_le_of_reserve hrun
  refine ⟨fun hle => ?_, ?_, fun hlt => ?_⟩
  · rw [Count.words_satAdd hle] at hreached
    omega
  · rw [hcost, hcost']
    exact hpaid.symm
  · have hle : start + len ≤ Memory.limit := by
      unfold Memory.limit Count.max
      omega
    rw [Count.words_satAdd hle] at hreached
    rw [hcost', ← Gas.memory_eq hlt]
    exact Gas.memory_mono hreached

/-- A reservation of one word by a frame that has just started. -/
theorem reserve_covers_word :
    let f := Frame.start .storing 100
    ∃ f' : Frame, f.Sized ∧ (reserve 0 32).run (f, ()) = (.ok (), (f', ())) ∧
      32 ≤ f'.memory.size ∧ 3 ≤ f'.gas.memory.cost := by
  intro f
  have hf : f.Sized := Frame.sized_start _ _
  obtain ⟨f', hrun⟩ : ∃ f', (reserve 0 32).run (f, ()) = (.ok (), (f', ())) := ⟨_, rfl⟩
  obtain ⟨hsize, -, hprice⟩ := reserve_covers hf hrun
  exact ⟨f', hf, hrun, hsize (by decide), hprice (by decide)⟩

/-- With enough gas, 2 ^ 32 words of memory cost less than they should: their square stops at the
largest count before it is divided. -/
theorem not_reserve_covers_large :
    let f := Frame.start .storing Count.max
    let words := (2 ^ 37 - 1 + 1 + 31) / 32
    ∃ f' : Frame, f.Sized ∧ (reserve (2 ^ 37 - 1) 1).run (f, ()) = (.ok (), (f', ())) ∧
      f'.gas.memory.cost < 3 * words + words * words / 512 := by
  intro f words
  have hexpand : f.gas.expand (Count.words (Count.satAdd (2 ^ 37 - 1) 1)) =
      ({ f.gas with
        remaining := Count.max - 36028809903865855
        memory := ⟨2 ^ 32, 36028809903865855⟩ }, .extended) := by
    decide
  rw [reserve_run, hexpand]
  exact ⟨_, Frame.sized_start _ _, rfl, by decide⟩

end Exec

end Evm
