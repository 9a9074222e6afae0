import Evm.Proofs.Execution.Moves
import Evm.Proofs.Execution.Operands

/-!
# What a frame hands down

An instruction that starts another frame has two halves. The first checks and pays for everything,
the gas of the other frame included, and comes to an `Errand` for the host (`Exec.errand`). The
second settles the host's answer, for which the first has left room on the stack. `Host.step_gas`
puts the halves of a step together: it says what becomes of the gas that the frame had right after
it handed some down.
-/

namespace Evm

variable {σ α β : Type}

/-- What a frame has its host run. -/
inductive Errand where
  | call (request : CallRequest)
  | create (request : CreateRequest)

namespace Exec

/-! ## Two halves -/

/-- Decodes the next instruction, pays its base price and moves on to the next position. -/
def fetch : Exec σ Instruction := do
  let f ← frame
  match f.instruction? with
  | none => halt .unknownOpcode
  | some i =>
    if i.isActive f.features then
      charge (Gas.base f.features i)
      update fun f => { f with pc := f.pc + 1 }
      return i
    else halt .inactiveOpcode

/-- A call up to where its frame starts. What is paid last is the gas that it gets. -/
def prepareCall (host : Host σ) (scheme : CallScheme) : Exec σ CallRequest := do
  let (gas, callee, value) ← callOperands scheme
  let movesValue := value != 0
  if scheme == .call && movesValue then
    if (← frame).isStatic then halt .valueCallInStatic
  let (input, out) ← callWindows
  let grant ← callGrant host scheme callee movesValue gas.toCount
  charge grant
  let gasLimit := if movesValue then Count.satAdd grant Gas.callStipend else grant
  return callRequest (← frame) scheme callee value input gasLimit out

/-- The rest of a call up to where its frame starts, once its first operands are known. -/
def openCall (host : Host σ) (scheme : CallScheme) (v : Word × Address × Word) :
    Exec σ CallRequest := do
  let (input, out) ← callWindows
  let grant ← callGrant host scheme v.2.1 (v.2.2 != 0) v.1.toCount
  charge grant
  let gasLimit := if v.2.2 != 0 then Count.satAdd grant Gas.callStipend else grant
  return callRequest (← frame) scheme v.2.1 v.2.2 input gasLimit out

/-- A creation up to where its frame starts. What is paid last is the gas that it gets. -/
def prepareCreate (host : Host σ) (salted : Bool) : Exec σ CreateRequest := do
  forbidStatic
  let (value, start, len) ← pop3
  let len ← count len
  let initCode ← initCode host start len
  let salt? ← if salted then some <$> salt len else pure none
  let gasLimit ← grantToCreation
  return { caller := (← frame).address, salt?, value, initCode, gasLimit }

/-- The next instruction of the frame up to where another frame starts, if it starts one. -/
def errand (host : Host σ) : Exec σ (Option Errand) := do
  match ← fetch with
  | .call scheme => return some (.call (← prepareCall host scheme))
  | .create salted => return some (.create (← prepareCreate host salted))
  | _ => return none

lemma next_eq (host : Host σ) : next host = fetch >>= fun i => i.run host := by
  unfold next fetch
  rw [bind_assoc]
  refine congrArg _ (funext fun f => ?_)
  cases f.instruction? with
  | none => rfl
  | some i =>
    dsimp only
    split
    · simp only [bind_assoc, pure_bind]
    · rfl

lemma call_eq (host : Host σ) (scheme : CallScheme) :
    call host scheme = (do settleCall (← tell (host.call (← prepareCall host scheme)))) := by
  unfold call prepareCall
  simp only [bind_assoc]
  refine congrArg _ (funext fun operands => ?_)
  split
  · simp only [bind_assoc]
    refine congrArg _ (funext fun f => ?_)
    split
    · rfl
    · simp only [bind_assoc, pure_bind]
  · simp only [bind_assoc, pure_bind]

lemma create_eq (host : Host σ) (salted : Bool) :
    create host salted =
      (do settleCreate (← tell (host.create (← prepareCreate host salted)))) := by
  unfold create prepareCreate
  cases salted <;>
    simp only [bind_assoc, pure_bind, if_true, Bool.false_eq_true, if_false]

variable {x y : Frame × σ} {host : Host σ}

/-- Fetching an instruction pays for it and moves on by one, or halts the frame where it is. -/
lemma fetch_run {f : Frame} {i : Instruction} (h : f.instruction? = some i) (s : σ) :
    (fetch : Exec σ Instruction).run (f, s) =
      if i.isActive f.features = true ∧ Gas.base f.features i ≤ f.gas.remaining then
        (.ok i, ({ f with
          gas := { f.gas with remaining := f.gas.remaining - Gas.base f.features i }
          pc := f.pc + 1 }, s))
      else (.error (if i.isActive f.features then .outOfGas else .inactiveOpcode), (f, s)) := by
  unfold fetch
  rw [frame_bind_run, h]
  dsimp only
  cases hactive : i.isActive f.features with
  | false => rfl
  | true =>
    simp only [if_true, true_and]
    have hcharge := charge_run (Gas.base f.features i) f s
    split at hcharge
    · rename_i hle
      rw [Program.run_bind_ok hcharge, if_pos hle]
      rfl
    · rename_i hgt
      rw [Program.run_bind_error hcharge, if_neg hgt]

/-- An instruction is fetched from where the frame is, and its operands stay. -/
lemma fetch_eq_ok {i : Instruction} (h : (fetch).run x = (.ok i, y)) :
    x.1.instruction? = some i ∧ y.1.stack = x.1.stack ∧ y.2 = x.2 := by
  obtain ⟨f, s⟩ := x
  rcases hi : f.instruction? with _ | i'
  · unfold fetch at h
    rw [frame_bind_run, hi] at h
    cases h
  · rw [fetch_run hi] at h
    split at h
    · cases h
      exact ⟨rfl, rfl, rfl⟩
    · cases h

/-- Only calls come to the errand of a call. -/
lemma errand_eq_call {request : CallRequest}
    (h : (errand host).run x = (.ok (some (.call request)), y)) :
    ∃ scheme z, (fetch).run x = (.ok (.call scheme), z) ∧
      (prepareCall host scheme).run z = (.ok request, y) := by
  obtain ⟨i, z, hfetch, hrest⟩ := Program.run_bind_eq_ok h
  cases i with
  | call scheme =>
    obtain ⟨request', y', hprepare, hrun⟩ := Program.run_bind_eq_ok hrest
    cases hrun
    exact ⟨scheme, z, hfetch, hprepare⟩
  | create salted =>
    obtain ⟨_, _, -, hrun⟩ := Program.run_bind_eq_ok hrest
    cases hrun
  | _ => cases hrest

lemma errand_run_call {scheme : CallScheme} {request : CallRequest} {z : Frame × σ}
    (hfetch : (fetch).run x = (.ok (.call scheme), y))
    (hprepare : (prepareCall host scheme).run y = (.ok request, z)) :
    (errand host).run x = (.ok (some (.call request)), z) := by
  unfold errand
  rw [Program.run_bind_ok hfetch]
  exact Program.run_bind_ok hprepare

/-! ## Room on the stack -/

/-- Where the program succeeds, it has taken that many words from the stack. -/
def Takes (n : Nat) (p : Exec σ α) : Prop :=
  ∀ x a y, p.run x = (.ok a, y) → n ≤ x.1.stack.height ∧ y.1.stack = x.1.stack.drop n

namespace Takes

variable {p p' : Exec σ α} {q : α → Exec σ β} {n n' : Nat}

lemma pure (a : α) : Takes 0 (Pure.pure a : Exec σ α) := by
  intro x b y h
  cases h
  exact ⟨Nat.zero_le _, rfl⟩

lemma halt (n : Nat) (status : Status) : Takes n (Exec.halt status : Exec σ α) := fun _ _ _ => nofun

lemma bind (hp : Takes n p) (hq : ∀ a, Takes n' (q a)) : Takes (n + n') (p >>= q) := by
  intro x b z h
  obtain ⟨a, y, hy, hz⟩ := Program.run_bind_eq_ok h
  obtain ⟨hle, hstack⟩ := hp x a y hy
  obtain ⟨hle', hstack'⟩ := hq a y b z hz
  have hheight : y.1.stack.height = x.1.stack.height - n := congrArg Stack.height hstack
  refine ⟨by omega, Stack.ext ?_⟩
  rw [hstack', hstack]
  exact List.drop_drop

lemma before (hp : Takes n p) (hq : ∀ a, Takes 0 (q a)) : Takes n (p >>= q) := bind hp hq

lemma after (hp : Takes 0 p) (hq : ∀ a, Takes n (q a)) : Takes n (p >>= q) :=
  Nat.zero_add n ▸ bind hp hq

lemma ite {c : Prop} [Decidable c] (hp : c → Takes n p) (hp' : ¬c → Takes n p') :
    Takes n (if c then p else p') := by
  split
  · exact hp ‹_›
  · exact hp' ‹_›

lemma update {g : Frame → Frame} (hg : ∀ f : Frame, (g f).stack = f.stack) :
    Takes 0 (Exec.update g : Exec σ Unit) := by
  intro x a y h
  cases h
  exact ⟨Nat.zero_le _, hg x.1⟩

lemma frame : Takes 0 (Exec.frame : Exec σ Frame) := by
  intro x a y h
  cases h
  exact ⟨Nat.zero_le _, rfl⟩

lemma environment (host : Host σ) : Takes 0 (Exec.environment host) := by
  intro x a y h
  cases h
  exact ⟨Nat.zero_le _, rfl⟩

lemma ask (op : HostM σ α) : Takes 0 (Exec.ask op) := by
  have htell : Takes 0 (Exec.tell op.run) := by
    intro x a y h
    cases h
    exact ⟨Nat.zero_le _, rfl⟩
  refine .before htell fun a? => ?_
  cases a? with
  | none => exact .halt 0 _
  | some a => exact .pure a

end Takes

lemma takes_pop (n : Nat) : Takes n (pop n : Exec σ (Vector Word n)) := by
  intro x words y h
  obtain ⟨hle, -, rfl⟩ := pop_eq_ok h
  exact ⟨hle, rfl⟩

lemma takes_count (w : Word) (otherwise : Status) : Takes 0 (count w otherwise : Exec σ Nat) := by
  unfold count
  split
  · exact .halt 0 _
  · exact .pure _

lemma takes_charge (cost : Nat) : Takes 0 (charge cost : Exec σ Unit) := by
  refine .after .frame fun f => ?_
  split
  · exact .halt 0 _
  · exact .update fun _ => rfl

lemma takes_chargePrice (price : Option Nat) : Takes 0 (chargePrice price : Exec σ Unit) := by
  cases price with
  | none => exact .halt 0 _
  | some cost => exact takes_charge cost

lemma takes_reserve (start len : Nat) : Takes 0 (reserve start len : Exec σ Unit) := by
  refine .after .frame fun f => ?_
  split
  · exact .update fun _ => rfl
  · exact .update fun _ => rfl
  · exact .after (.update fun _ => rfl) fun _ => .halt 0 _

lemma takes_readMemory (start : Word) (len : Nat) :
    Takes 0 (readMemory start len : Exec σ Bytes) :=
  .ite (fun _ => .pure _) fun _ => .after (takes_count _ _) fun _ =>
    .after (takes_reserve _ _) fun _ => .after .frame fun _ => .pure _

lemma takes_initCode (host : Host σ) (start : Word) (len : Nat) :
    Takes 0 (initCode host start len) := by
  have hread : Takes 0 (do charge (Gas.initCode len); readMemory start len : Exec σ Bytes) :=
    .after (takes_charge _) fun _ => takes_readMemory _ _
  refine .ite (fun _ => .pure _) fun _ => .after (.after .frame fun _ => .pure _) fun _ =>
    .ite (fun _ => .after (.environment host) fun _ => ?_) fun _ => takes_readMemory _ _
  exact .ite (fun _ => .after (.halt 0 _) fun _ => hread) fun _ => hread

lemma takes_salt (len : Nat) : Takes 1 (salt len : Exec σ Word) :=
  .before (.before (takes_pop 1) fun _ => .pure _) fun _ =>
    .after (takes_chargePrice _) fun _ => .pure _

lemma takes_grantToCreation : Takes 0 (grantToCreation : Exec σ Nat) :=
  .after .frame fun _ => .after (.after .frame fun _ => .pure _) fun _ =>
    .after (takes_charge _) fun _ => .pure _

/-- A creation takes its operands from the stack. -/
lemma takes_prepareCreate (host : Host σ) (salted : Bool) :
    Takes (Instruction.create salted).inputs (prepareCreate host salted) := by
  have hgrant (salt? : Option Word) (value : Word) (initCode : Bytes) : Takes 0 (do
      let gasLimit ← grantToCreation
      return { caller := (← frame).address, salt?, value, initCode, gasLimit } :
        Exec σ CreateRequest) :=
    .after takes_grantToCreation fun _ => .after .frame fun _ => .pure _
  have hforbid : Takes 0 (forbidStatic : Exec σ Unit) :=
    .after .frame fun _ => .ite (fun _ => .halt 0 _) fun _ => .pure _
  have hpop : Takes 3 (pop3 : Exec σ (Word × Word × Word)) := .before (takes_pop 3) fun _ => .pure _
  refine .after hforbid fun _ => ?_
  cases salted with
  | false =>
    exact hpop.before fun _ => .after (takes_count _ _) fun _ =>
      .after (takes_initCode _ _ _) fun _ => .after (.pure _) fun _ => hgrant _ _ _
  | true =>
    have hsalt (len : Nat) : Takes 1 (some <$> salt len : Exec σ (Option Word)) := by
      rw [map_eq_pure_bind]
      exact .before (takes_salt len) fun _ => .pure _
    exact hpop.bind fun _ => .after (takes_count _ _) fun len =>
      .after (takes_initCode _ _ _) fun _ => (hsalt len).before fun _ => hgrant _ _ _

lemma takes_callOperands (scheme : CallScheme) :
    Takes (if takesValue scheme then 3 else 2)
      (callOperands scheme : Exec σ (Word × Address × Word)) := by
  refine .ite (fun h => ?_) fun h => ?_
  · rw [if_pos h]
    exact .before (.before (takes_pop 3) fun _ => .pure _) fun _ => .pure _
  · rw [if_neg h]
    exact .before (.before (takes_pop 2) fun _ => .pure _) fun _ => .pure _

lemma takes_callWindows : Takes 4 (callWindows : Exec σ (Bytes × Window)) :=
  .before (.before (takes_pop 4) fun _ => .pure _) fun _ => .after (takes_count _ _) fun _ =>
    .after (takes_readMemory _ _) fun _ => .after (takes_count _ _) fun _ =>
      .ite (fun _ => .pure _) fun _ => .after (takes_count _ _) fun _ =>
        .after (takes_reserve _ _) fun _ => .pure _

lemma takes_callGrant (host : Host σ) (scheme : CallScheme) (callee : Address)
    (movesValue : Bool) (requested : Nat) :
    Takes 0 (callGrant host scheme callee movesValue requested) :=
  .after (.ask _) fun _ => .after .frame fun _ => .after (takes_charge _) fun _ =>
    .ite (fun _ => .after .frame fun _ => .pure _) fun _ => .pure _

lemma takes_openCall (host : Host σ) (scheme : CallScheme) (v : Word × Address × Word) :
    Takes 4 (openCall host scheme v) :=
  takes_callWindows.before fun _ => .after (takes_callGrant _ _ _ _ _) fun _ =>
    .after (takes_charge _) fun _ => .after .frame fun _ => .pure _

/-- A call takes its operands from the stack. -/
lemma takes_prepareCall (host : Host σ) (scheme : CallScheme) :
    Takes (Instruction.call scheme).inputs (prepareCall host scheme) := by
  have hinputs : (Instruction.call scheme).inputs = (if takesValue scheme then 3 else 2) + 4 := by
    cases scheme <;> rfl
  rw [hinputs]
  refine (takes_callOperands scheme).bind fun v => ?_
  have hrest := takes_openCall host scheme v
  exact .ite (fun _ => .after .frame fun _ =>
    .ite (fun _ => .after (.halt 0 _) fun _ => hrest) fun _ => hrest) fun _ => hrest

end Exec

/-! ## The second half -/

/-- What a frame is told about its errand. -/
structure Report where
  outcome : Outcome
  /-- Where the output goes. -/
  out : Window := {}
  /-- What stays for the frame to copy. -/
  returnData : Bytes
  /-- What is put on the stack. -/
  word : Word

/-- After a call all of its output stays. -/
def CallResponse.report (response : CallResponse) : Report where
  outcome := response.outcome
  out := response.out
  returnData := response.outcome.output
  word := if response.outcome.status.isOk then 1 else 0

/-- After a creation only the output of a failure stays that has been asked for. -/
def CreateResponse.report (response : CreateResponse) : Report where
  outcome := response.outcome
  returnData := if response.outcome.status.isRevert then response.outcome.output else #[]
  word := if response.outcome.status.isOk then (response.address?.map Word.ofAddress).getD 0 else 0

/-- The memory with the output as far as it fits the window, which halted frames do not have. -/
def Memory.receive (m : Memory) (out : Window) (o : Outcome) : Memory :=
  if o.status.isOk ∨ o.status.isRevert then
    m.write out.start (o.output.extract 0 (Nat.min out.size o.output.size))
  else m

namespace Gas.Meter

/-- The meter of a frame once a frame below it has ended. -/
def settled (m : Meter) (o : Outcome) : Meter :=
  if o.status.isOk then (m.giveBack o.gas.remaining).addRefund o.gas.refunded
  else if o.status.isRevert then m.giveBack o.gas.remaining
  else m

/-- Where nothing is left after a halt, exactly what is left comes back. -/
lemma remaining_settled {m : Meter} {o : Outcome}
    (h : o.status.isError = true → o.gas.remaining = 0) :
    (m.settled o).remaining = m.remaining + o.gas.remaining := by
  unfold settled
  split_ifs with hok hrevert
  · rfl
  · rfl
  · have herror : o.status.isError = true := by
      simp only [Status.isError, hok, hrevert]
      rfl
    rw [h herror]
    rfl

/-- The refund comes back from frames that succeed only. -/
lemma refunded_settled (m : Meter) (o : Outcome) :
    (m.settled o).refunded = m.refunded + if o.isOk then o.gas.refunded else 0 := by
  unfold settled Outcome.isOk
  split_ifs with hok hrevert
  · rfl
  · exact (Int.add_zero _).symm
  · exact (Int.add_zero _).symm

end Gas.Meter

/-- How a frame goes on once it has been told. -/
structure Frame.TakesUp (f : Frame) (report : Report) (f' : Frame) : Prop where
  gas : f'.gas = f.gas.settled report.outcome
  memory : f'.memory = f.memory.receive report.out report.outcome
  returnData : f'.returnData = report.returnData
  stack : f'.stack.words = report.word :: f.stack.words

/-- No output fits an empty window. -/
lemma Memory.receive_empty (m : Memory) (o : Outcome) : m.receive {} o = m := by
  unfold receive
  split
  · have hmin : Nat.min 0 o.output.size = 0 := Nat.zero_min _
    rw [hmin, Array.extract_zero]
    rfl
  · rfl

namespace Exec

variable {f : Frame} {s : σ}

/-- With room on the stack, a push succeeds. -/
lemma push_run_of_lt (hf : f.stack.height < stackLimit) (w : Word) :
    ∃ stack : Stack, stack.words = w :: f.stack.words ∧
      (push w).run (f, s) = (.ok (), ({ f with stack }, s)) := by
  rw [push_run, Stack.push?, dif_pos hf]
  exact ⟨_, rfl, rfl⟩

/-- With room on the stack, a call that has not failed for good is settled. -/
lemma settleCall_run {response : CallResponse} (hf : f.stack.height < stackLimit)
    (hfatal : response.outcome.status ≠ .fatal) :
    ∃ f', (settleCall response).run (f, s) = (.ok (), (f', s)) ∧ f.TakesUp response.report f' := by
  obtain ⟨outcome, out⟩ := response
  have hnot : outcome.status.isFatal = false := beq_eq_false_iff_ne.2 hfatal
  unfold settleCall storeOutput
  dsimp only
  rw [update_bind_run]
  cases hok : outcome.status.isOk with
  | true =>
    simp only [if_true]
    rw [update_bind_run, update_bind_run]
    obtain ⟨stack, hwords, hrun⟩ := push_run_of_lt (s := s) (f := { f with
      returnData := outcome.output
      gas := (f.gas.giveBack outcome.gas.remaining).addRefund outcome.gas.refunded
      memory := f.memory.write out.start
        (outcome.output.extract 0 (Nat.min out.size outcome.output.size)) }) hf 1
    refine ⟨_, hrun, ?_, ?_, rfl, ?_⟩ <;>
      simp [CallResponse.report, Gas.Meter.settled, Memory.receive, hok, hwords]
  | false =>
    cases hrevert : outcome.status.isRevert with
    | true =>
      simp only [Bool.false_eq_true, if_false, if_true]
      rw [update_bind_run, update_bind_run]
      obtain ⟨stack, hwords, hrun⟩ := push_run_of_lt (s := s) (f := { f with
        returnData := outcome.output
        gas := f.gas.giveBack outcome.gas.remaining
        memory := f.memory.write out.start
          (outcome.output.extract 0 (Nat.min out.size outcome.output.size)) }) hf 0
      refine ⟨_, hrun, ?_, ?_, rfl, ?_⟩ <;>
        simp [CallResponse.report, Gas.Meter.settled, Memory.receive, hok, hrevert, hwords]
    | false =>
      simp only [hnot, Bool.false_eq_true, if_false]
      obtain ⟨stack, hwords, hrun⟩ := push_run_of_lt (s := s)
        (f := { f with returnData := outcome.output }) hf 0
      refine ⟨_, hrun, ?_, ?_, rfl, ?_⟩ <;>
        simp [CallResponse.report, Gas.Meter.settled, Memory.receive, hok, hrevert, hwords]

/-- With room on the stack, a creation that has not failed for good is settled. -/
lemma settleCreate_run {response : CreateResponse} (hf : f.stack.height < stackLimit)
    (hfatal : response.outcome.status ≠ .fatal) :
    ∃ f', (settleCreate response).run (f, s) = (.ok (), (f', s)) ∧
      f.TakesUp response.report f' := by
  obtain ⟨outcome, address?⟩ := response
  have hnot : outcome.status.isFatal = false := beq_eq_false_iff_ne.2 hfatal
  have hmemory : f.memory = f.memory.receive {} outcome := (Memory.receive_empty _ _).symm
  unfold settleCreate
  dsimp only
  rw [update_bind_run]
  -- What stays is decided before and apart from the three ways to go on.
  obtain ⟨returnData, hreturnData⟩ : ∃ returnData, returnData =
      (if outcome.status.isRevert then outcome.output else #[]) := ⟨_, rfl⟩
  rw [← hreturnData]
  have hpush (w : Word) := push_run_of_lt (s := s) (f := { f with returnData }) hf w
  cases hok : outcome.status.isOk with
  | true =>
    simp only [if_true]
    obtain ⟨stack, hwords, hrun⟩ := hpush ((address?.map Word.ofAddress).getD 0)
    rw [Program.run_bind_ok hrun]
    refine ⟨_, rfl, ?_, hmemory, hreturnData, ?_⟩ <;>
      simp [CreateResponse.report, Gas.Meter.settled, hok, hwords]
  | false =>
    obtain ⟨stack, hwords, hrun⟩ := hpush 0
    cases hrevert : outcome.status.isRevert with
    | true =>
      simp only [Bool.false_eq_true, if_false, if_true]
      rw [Program.run_bind_ok hrun]
      refine ⟨_, rfl, ?_, hmemory, hreturnData, ?_⟩ <;>
        simp [CreateResponse.report, Gas.Meter.settled, hok, hrevert, hwords]
    | false =>
      simp only [hnot, Bool.false_eq_true, if_false]
      refine ⟨_, hrun, ?_, hmemory, hreturnData, ?_⟩ <;>
        simp [CreateResponse.report, Gas.Meter.settled, hok, hrevert, hwords]

end Exec

/-! ## A step -/

/-- How the frame of an errand ends that a host is sent on. -/
def Host.outcomeOf (host : Host σ) (s : σ) : Errand → Outcome
  | .call request => (host.call request s).1.outcome
  | .create request => (host.create request s).1.outcome

/-- What a host reports of an errand. -/
def Host.report (host : Host σ) (s : σ) : Errand → Report
  | .call request => (host.call request s).1.report
  | .create request => (host.create request s).1.report

lemma Host.outcome_report (host : Host σ) (s : σ) (errand : Errand) :
    (host.report s errand).outcome = host.outcomeOf s errand := by
  cases errand <;> rfl

namespace Exec

variable {host : Host σ} {x y : Frame × σ} {f₁ : Frame} {s₁ : σ} {errand : Errand}

/-- An instruction that comes to an errand has taken its operands from the stack. -/
lemma errand_takes (herrand : (Exec.errand host).run x = (.ok (some errand), y)) :
    ∃ i : Instruction, x.1.instruction? = some i ∧ 0 < i.inputs ∧ i.inputs ≤ x.1.stack.height ∧
      y.1.stack = x.1.stack.drop i.inputs := by
  obtain ⟨i, z, hfetch, hrest⟩ := Program.run_bind_eq_ok herrand
  obtain ⟨hi, hstack, -⟩ := fetch_eq_ok hfetch
  refine ⟨i, hi, ?_⟩
  rw [← hstack]
  cases i with
  | call scheme =>
    obtain ⟨request, z', hprepare, hrun⟩ := Program.run_bind_eq_ok hrest
    cases hrun
    exact ⟨by cases scheme <;> decide, takes_prepareCall host scheme _ _ _ hprepare⟩
  | create salted =>
    obtain ⟨request, z', hprepare, hrun⟩ := Program.run_bind_eq_ok hrest
    cases hrun
    exact ⟨by cases salted <;> decide, takes_prepareCreate host salted _ _ _ hprepare⟩
  | _ => cases hrest

/-- An instruction that comes to an errand takes up the report on it. -/
lemma next_run_of_errand (herrand : (Exec.errand host).run x = (.ok (some errand), (f₁, s₁)))
    (hfatal : (host.outcomeOf s₁ errand).status ≠ .fatal) :
    ∃ f' s', (next host).run x = (.ok (), (f', s')) ∧ f₁.TakesUp (host.report s₁ errand) f' := by
  have hroom : f₁.stack.height < stackLimit := by
    obtain ⟨i, -, hpos, hle, hstack⟩ := errand_takes herrand
    have hheight : f₁.stack.height = x.1.stack.height - i.inputs := congrArg Stack.height hstack
    have hlimit := x.1.stack.height_le
    omega
  rw [next_eq]
  obtain ⟨i, x₀, hfetch, hrest⟩ := Program.run_bind_eq_ok herrand
  rw [Program.run_bind_ok hfetch]
  cases i with
  | call scheme =>
    obtain ⟨request, x₁, hprepare, hrun⟩ := Program.run_bind_eq_ok hrest
    cases hrun
    obtain ⟨f', hsettle, htakes⟩ := settleCall_run (s := (host.call request s₁).2) hroom hfatal
    refine ⟨f', (host.call request s₁).2, ?_, htakes⟩
    change (call host scheme).run x₀ = _
    rw [call_eq, Program.run_bind_ok hprepare, tell_bind_run]
    exact hsettle
  | create salted =>
    obtain ⟨request, x₁, hprepare, hrun⟩ := Program.run_bind_eq_ok hrest
    cases hrun
    obtain ⟨f', hsettle, htakes⟩ :=
      settleCreate_run (s := (host.create request s₁).2) hroom hfatal
    refine ⟨f', (host.create request s₁).2, ?_, htakes⟩
    change (create host salted).run x₀ = _
    rw [create_eq, Program.run_bind_ok hprepare, tell_bind_run]
    exact hsettle
  | _ => cases hrest

end Exec

/-- A step in which another frame starts brings in what that frame leaves, unless the host fails. -/
theorem Host.step_gas {host : Host σ} {f f₁ : Frame} {s s₁ : σ} {errand : Errand}
    (hsilent : host.Silent) (hf : f.isRunning = true)
    (herrand : (Exec.errand host).run (f, s) = (.ok (some errand), (f₁, s₁)))
    (hfatal : (host.outcomeOf s₁ errand).status ≠ .fatal) :
    (host.step f s).1.gas = f₁.gas.settled (host.outcomeOf s₁ errand) := by
  obtain ⟨f', s', hnext, htakes⟩ := Exec.next_run_of_errand herrand hfatal
  rw [hsilent.step_eq, if_pos hf]
  unfold Exec.perform
  rw [hnext, ← host.outcome_report]
  exact htakes.gas

end Evm
