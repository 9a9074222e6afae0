import Evm.Host.Sandbox
import Evm.Proofs.Code
import Evm.Proofs.Execution.Handover
import Evm.Proofs.Execution.Termination
import Evm.Proofs.Execution.Upholding

/-!
# Where a frame goes on

A frame that starts at the beginning of its code is always about to run an instruction that starts
where it stands, or it has come to the end of the code (`Code.IsBoundary`). Most instructions leave
the frame right behind their own byte. Jumps and subroutine calls go to destinations that the
analysis has found, and those are starts; a return goes to a position that a subroutine call has
left, right behind that call; and a push skips what it carries. So a push finds its word in the
analysis (`Host.steps_boundary`). -/

namespace Evm

variable {σ α : Type} {host : Host σ}

/-! ## Boundaries -/

namespace Code

/-- A frame may go on at `pc`: an instruction starts there, or the code is over. -/
def IsBoundary (c : Code) (pc : Nat) : Prop := c.size ≤ pc ∨ c.bytes.Starts pc

/-- A subroutine may return to `pc`: it is a boundary right behind a subroutine call. -/
def Resumes (c : Code) (pc : Nat) : Prop :=
  c.IsBoundary pc ∧ ∃ call, c.bytes.Starts call ∧ c.byteAt call = 0x5e ∧ pc = call + 1

lemma byteAt_of_lt {c : Code} {pc : Nat} (h : pc < c.bytes.size) : c.byteAt pc = c.bytes[pc] :=
  (Array.getElem_eq_getD 0).symm

lemma byteAt_of_le {c : Code} {pc : Nat} (h : c.size ≤ pc) : c.byteAt pc = 0 := by
  unfold byteAt
  rw [Array.getD_eq_getD_getElem?, Array.getElem?_eq_none h]
  rfl

lemma IsBoundary.next {c : Code} {pc : Nat} (h : c.bytes.Starts pc) :
    c.IsBoundary (pc + 1 + immediateSize (c.byteAt pc)) := by
  rcases Nat.lt_or_ge pc c.bytes.size with hlt | hge
  · rw [byteAt_of_lt hlt]
    exact .inr (.next h hlt)
  · exact .inl (by unfold size; omega)

lemma jumpTable_eq (c : Code) : c.jumpTable = JumpTable.analyze c.bytes := c.table_eq

lemma isBoundary_of_isJumpDest {c : Code} {pc : Nat} (h : c.jumpTable.isJumpDest pc = true) :
    c.IsBoundary pc := by
  rw [jumpTable_eq, JumpTable.isJumpDest_analyze] at h
  obtain ⟨-, hstart, -⟩ := h
  exact .inr hstart

/-- A subroutine is entered behind the byte that begins it. -/
lemma isBoundary_of_isBeginSub {c : Code} {pc : Nat} (h : c.jumpTable.isBeginSub pc = true) :
    c.IsBoundary (pc + 1) := by
  rw [jumpTable_eq, JumpTable.isBeginSub_analyze] at h
  obtain ⟨hlt, hstart, hbyte⟩ := h
  have hnext := IsBoundary.next (c := c) hstart
  rwa [byteAt_of_lt hlt, hbyte] at hnext

end Code

namespace Instruction

/-- Number of bytes that the instruction carries. -/
def carried : Instruction → Nat
  | .push n => n
  | _ => 0

/-- The byte is one that carries what the instruction carries, and that of a subroutine call if the
instruction is one. -/
def FitsByte (b : UInt8) (i : Instruction) : Prop :=
  immediateSize b = i.carried ∧ (i = .jumpSub → b = 0x5e)

instance (b : UInt8) : DecidablePred (FitsByte b) := fun _ => inferInstanceAs (Decidable (_ ∧ _))

/-- Every byte fits the instruction that it stands for, with subroutines or without. -/
lemma fitsByte_of_decode {features : Features} {b : UInt8} {i : Instruction}
    (h : decode features b = some i) : FitsByte b i := by
  have hall : ∀ n < 256, ∀ subroutines : Bool,
      (if subroutines then (subroutine? (UInt8.ofNat n)).or (ofByte? (UInt8.ofNat n))
        else ofByte? (UInt8.ofNat n)).all (fun i => decide (FitsByte (UInt8.ofNat n) i)) = true := by
    decide +kernel
  have hb := hall b.toNat b.toNat_lt (features.has .eip2315)
  rw [UInt8.ofNat_toNat] at hb
  unfold decode at h
  rw [h] at hb
  exact of_decide_eq_true hb

end Instruction

/-! ## Frames -/

namespace Frame

/-- The frame has opened no more subroutines than it may, and all of them return to where they may.
-/
structure Nests (f : Frame) : Prop where
  resumes : ∀ pc ∈ f.returnStack, f.code.Resumes pc
  length_le : f.returnStack.length ≤ returnStackLimit

/-- The later frame runs the same code and is at the same place in it. -/
structure SamePlace (f f' : Frame) : Prop where
  invocation : f'.toInvocation = f.toInvocation
  pc : f'.pc = f.pc
  returnStack : f'.returnStack = f.returnStack

namespace SamePlace

variable {f f' : Frame}

lemma trans {f'' : Frame} (h : f.SamePlace f') (h' : f'.SamePlace f'') : f.SamePlace f'' :=
  ⟨h'.invocation.trans h.invocation, h'.pc.trans h.pc, h'.returnStack.trans h.returnStack⟩

lemma code (h : f.SamePlace f') : f'.code = f.code := congrArg Invocation.code h.invocation

lemma nests (h : f.SamePlace f') (hf : f.Nests) : f'.Nests where
  resumes := by
    rw [h.returnStack, h.code]
    exact hf.resumes
  length_le := h.returnStack ▸ hf.length_le

end SamePlace

lemma Stays.samePlace {f f' : Frame} (h : f.Stays f') : f.SamePlace f' :=
  ⟨h.invocation, h.pc, h.returnStack⟩

end Frame

/-- What holds of a frame alone is up to no host. -/
lemma Host.answered_frame {P : Frame → Prop} {f : Frame} (h : P f) (r : Option α × σ) :
    Answered (fun x : Frame × σ => P x.1) (fun x => P x.1) f r := by
  rcases r with ⟨_ | _, _⟩ <;> exact h

lemma Host.returned_frame {P : Frame → Prop} {f : Frame} (h : P f)
    (hrefund : ∀ refund, P (f.withRefund refund)) (o : Outcome) (s : σ) :
    Returned (fun x : Frame × σ => P x.1) (fun x => P x.1) f o s :=
  ⟨h, fun _ => hrefund _, fun _ _ => h⟩

/-- No operation of a host does anything to the frame. -/
lemma Host.upholds_frame (host : Host σ) {P : Frame → Prop}
    (hstays : ∀ {f f' : Frame}, f.Stays f' → P f → P f')
    (hrefund : ∀ {f : Frame} refund, P f → P (f.withRefund refund)) :
    host.Upholds (fun x => P x.1) (fun x => P x.1) where
  abort h := h
  stays := hstays
  staysAborted := hstays
  presence _ h := answered_frame h _
  balance _ h := answered_frame h _
  code _ h := answered_frame h _
  codeHash _ h := answered_frame h _
  loadSlot _ _ h := answered_frame h _
  storeSlot a index value h := by
    split
    · exact ⟨h, hrefund _ h⟩
    · exact h
  loadTransient _ _ h := h
  storeTransient _ _ _ h := h
  log _ h := h
  selfDestruct _ _ h := answered_frame h _
  create _ h := returned_frame h (fun _ => hrefund _ h) _ _
  call _ h := returned_frame h (fun _ => hrefund _ h) _ _

lemma Host.upholds_samePlace (host : Host σ) (f₀ : Frame) :
    host.Upholds (fun x => f₀.SamePlace x.1) (fun x => f₀.SamePlace x.1) :=
  host.upholds_frame (fun hstays h => h.trans hstays.samePlace)
    fun _ h => ⟨h.invocation, h.pc, h.returnStack⟩

lemma Host.upholds_invocation (host : Host σ) (invocation : Invocation) :
    host.Upholds (fun x => x.1.toInvocation = invocation)
      (fun x => x.1.toInvocation = invocation) :=
  host.upholds_frame (P := fun f => f.toInvocation = invocation)
    (fun hstays h => hstays.invocation.trans h) fun _ h => h

/-! ## Instructions -/

namespace Exec

/-- The subroutines of the frame stay in order, and if the program goes on, the frame is at a
boundary. -/
abbrev Lands (p : Exec σ α) (x : Frame × σ) : Prop :=
  Ends (fun y => y.1.Nests) (fun _ y => y.1.code.IsBoundary y.1.pc) p x

/-- What comes after work runs on a frame at the same place. -/
lemma lands_work_bind {β : Type} {p : Exec σ α} {q : α → Exec σ β} (hp : Work p) {f : Frame} {s : σ}
    (hf : f.Nests) (hq : ∀ a f' s', f.SamePlace f' → Lands (q a) (f', s')) :
    Lands (p >>= q) (f, s) := by
  obtain ⟨f', hrun, hworks, -⟩ := hp f s
  have hplace : f.SamePlace f' := ⟨hworks.gains.invocation, hworks.pc, hworks.returnStack⟩
  refine Ends.bind (P := fun _ y => f.SamePlace y.1) ⟨?_, fun a y hok => ?_⟩
    fun a y _ hy => hq a y.1 y.2 hy
  · rw [hrun]
    exact hplace.nests hf
  · rw [hok] at hrun
    obtain rfl : y = (f', s) := hrun
    exact hplace

lemma lands_halt {status : Status} {f : Frame} {s : σ} (hf : f.Nests) :
    Lands (halt status : Exec σ α) (f, s) := ⟨hf, nofun⟩

/-- The frame goes on somewhere else. -/
lemma lands_update {g : Frame → Frame} {f : Frame} {s : σ} (hf : (g f).Nests)
    (h : (g f).code.IsBoundary (g f).pc) : Lands (update g : Exec σ Unit) (f, s) :=
  .of_run rfl hf fun _ _ => h

lemma lands_jumpTo {target : Word} {f : Frame} {s : σ} (hf : f.Nests) :
    Lands (jumpTo target) (f, s) := by
  refine lands_work_bind (work_count _ _ rfl) hf fun pc f' s' hplace => ?_
  have hf' := hplace.nests hf
  unfold Lands Ends
  rw [frame_bind_run]
  split
  · rename_i hdest
    exact lands_update ⟨hf'.resumes, hf'.length_le⟩ (Code.isBoundary_of_isJumpDest hdest)
  · exact lands_halt hf'

/-- The position behind the byte of the instruction is where a subroutine returns to. -/
lemma lands_jumpSub {f : Frame} {s : σ} (hf : f.Nests) (hresumes : f.code.Resumes f.pc) :
    Lands jumpSub (f, s) := by
  refine lands_work_bind work_pop1 hf fun w f₁ s₁ hplace₁ => ?_
  refine lands_work_bind (work_count _ _ rfl) (hplace₁.nests hf) fun target f' s' hplace₂ => ?_
  have hplace : f.SamePlace f' := hplace₁.trans hplace₂
  have hf' := hplace.nests hf
  unfold Lands Ends
  rw [frame_bind_run]
  dsimp only
  split_ifs with hdest hfull
  · exact lands_halt hf'
  · exact lands_halt hf'
  · refine lands_update ⟨fun pc hpc => ?_, Nat.lt_of_not_le hfull⟩
      (Code.isBoundary_of_isBeginSub (by simpa using hdest))
    rcases List.mem_cons.1 hpc with rfl | hpc
    · rw [hplace.pc, hplace.code]
      exact hresumes
    · exact hf'.resumes pc hpc

lemma lands_returnSub {f : Frame} {s : σ} (hf : f.Nests) : Lands returnSub (f, s) := by
  unfold returnSub Lands Ends
  rw [frame_bind_run]
  rcases hstack : f.returnStack with _ | ⟨pc, rest⟩
  · exact lands_halt hf
  · have hresumes := hf.resumes
    have hlength := hf.length_le
    rw [hstack] at hresumes hlength
    exact lands_update ⟨fun pc' hpc' => hresumes pc' (List.mem_cons_of_mem _ hpc'),
      Nat.le_of_succ_le hlength⟩ (hresumes pc (List.mem_cons_self)).1

lemma lands_pushImmediate {size : Nat} {f : Frame} {s : σ} (hf : f.Nests)
    (hnext : f.code.IsBoundary (f.pc + size)) : Lands (pushImmediate size) (f, s) := by
  unfold pushImmediate Lands Ends
  rw [frame_bind_run]
  refine lands_work_bind (work_push _) hf fun _ f' s' hplace => ?_
  have hf' := hplace.nests hf
  refine lands_update ⟨hf'.resumes, hf'.length_le⟩ ?_
  change f'.code.IsBoundary (f'.pc + size)
  rwa [hplace.code, hplace.pc]

/-- The instruction at `pc` leaves the frame, which has moved on by one, at a boundary. -/
lemma lands_instruction {i : Instruction} {pc : Nat} {f : Frame} {s : σ} (hf : f.Nests)
    (hstart : f.code.bytes.Starts pc) (hfits : i.FitsByte (f.code.byteAt pc))
    (hpc : f.pc = pc + 1) :
    Lands (i.run host) (f, s) := by
  obtain ⟨hcarried, hcall⟩ := hfits
  have hnext : f.code.IsBoundary (f.pc + i.carried) := by
    rw [hpc, ← hcarried]
    exact .next hstart
  -- Instructions that leave the frame where it is.
  have hsame (hi : i.redirects = false) : Lands (i.run host) (f, s) := by
    have hmeets := meets_instruction (host.upholds_samePlace f) (i := i)
      (fun h => absurd h (Bool.eq_false_iff.1 hi)) (f, s) ⟨rfl, rfl, rfl⟩
    have hcarries : i.carried = 0 := by
      cases i <;> first | rfl | contradiction
    rw [hcarries] at hnext
    rcases hrun : (i.run host).run (f, s) with ⟨status | _, y⟩ <;> rw [hrun] at hmeets
    · exact .of_run hrun (hmeets.1.nests hf) nofun
    · refine .of_run hrun (hmeets.nests hf) fun _ _ => ?_
      rw [hmeets.pc, hmeets.code]
      exact hnext
  cases i with
  | jump =>
    exact lands_work_bind work_pop1 hf fun _ _ _ hplace => lands_jumpTo (hplace.nests hf)
  | jumpI =>
    refine lands_work_bind work_pop2 hf fun v f' s' hplace => ?_
    refine .ite (fun _ => lands_jumpTo (hplace.nests hf)) fun _ => .pure (hplace.nests hf) ?_
    rw [hplace.code, hplace.pc]
    exact hnext
  | jumpSub =>
    exact lands_jumpSub hf ⟨hnext, pc, hstart, hcall rfl, hpc⟩
  | returnSub => exact lands_returnSub hf
  | push size => exact lands_pushImmediate hf hnext
  | _ => exact hsame rfl

/-! ## Steps -/

/-- The next instruction leaves a frame that is at a boundary at another one. -/
lemma lands_next {f : Frame} {s : σ} (hf : f.Nests) (hpc : f.code.IsBoundary f.pc) :
    Lands (next host) (f, s) := by
  rw [next_eq]
  rcases hi : f.instruction? with _ | i
  · have hrun : (fetch : Exec σ Instruction).run (f, s) = (.error .unknownOpcode, (f, s)) := by
      unfold fetch
      rw [frame_bind_run, hi]
      rfl
    exact .of_run (Program.run_bind_error hrun) hf nofun
  have hrun := fetch_run hi s
  split at hrun
  · refine .step hrun ?_
    rcases hpc with hover | hstart
    · -- Past the end stands a stop.
      have hstop : i = .stop := by
        have hdecode := hi
        unfold Frame.instruction? Frame.opcode at hdecode
        rw [Code.byteAt_of_le hover] at hdecode
        unfold Instruction.decode at hdecode
        split at hdecode <;> exact (Option.some.inj hdecode).symm
      subst hstop
      exact lands_halt ⟨hf.resumes, hf.length_le⟩
    · exact lands_instruction ⟨hf.resumes, hf.length_le⟩ hstart
        (Instruction.fitsByte_of_decode hi) rfl
  · exact .of_run (Program.run_bind_error hrun) hf nofun

end Exec

/-- A frame that goes on is at a boundary, and its subroutines are in order however it has ended. -/
structure Frame.OnTrack (f : Frame) : Prop where
  nests : f.Nests
  boundary : f.isRunning = true → f.code.IsBoundary f.pc

/-- The host looks at frames before and after a step without changing them. -/
structure Host.Spectates (host : Host σ) : Prop where
  beforeStep : ∀ f s, (host.beforeStep f s).1 = f
  afterStep : ∀ f s, (host.afterStep f s).1 = f

namespace Host

lemma step_frame (h : host.Spectates) {f : Frame} (hf : f.isRunning = true) (s : σ) :
    (host.step f s).1 = ((Exec.next host).perform (f, (host.beforeStep f s).2)).1 := by
  have hbefore : host.beforeStep f s = (f, (host.beforeStep f s).2) :=
    Prod.ext (h.beforeStep f s) rfl
  unfold step
  rw [hbefore]
  dsimp only
  rw [if_pos hf, h.afterStep]

lemma step_onTrack (h : host.Spectates) {f : Frame} (s : σ) (hf : f.OnTrack) :
    (host.step f s).1.OnTrack := by
  cases hrunning : f.isRunning with
  | false =>
    have hbefore : host.beforeStep f s = (f, (host.beforeStep f s).2) :=
      Prod.ext (h.beforeStep f s) rfl
    unfold step
    rw [hbefore]
    dsimp only
    rw [if_neg (by rw [hrunning]; decide)]
    exact hf
  | true =>
    rw [step_frame h hrunning]
    have hnext : Exec.Lands (Exec.next host) (f, (host.beforeStep f s).2) :=
      Exec.lands_next hf.nests (hf.boundary hrunning)
    obtain ⟨hnests, hlands⟩ := hnext
    have hhalts := Exec.halts_next host (f, (host.beforeStep f s).2)
    unfold Exec.perform
    rcases hrun : (Exec.next host).run (f, (host.beforeStep f s).2) with ⟨status | _, f', s'⟩ <;>
      rw [hrun] at hnests hhalts
    · exact ⟨⟨hnests.resumes, hnests.length_le⟩,
        fun hgoes => absurd (congrArg Except.error (eq_of_beq hgoes)) hhalts⟩
    · exact ⟨hnests, fun _ => hlands () _ hrun⟩

lemma steps_onTrack (h : host.Spectates) (fuel : Nat) {f : Frame} (s : σ) (hf : f.OnTrack) :
    (host.steps fuel f s).1.OnTrack := by
  induction fuel generalizing f s with
  | zero => exact hf
  | succ fuel ih =>
    unfold steps
    split
    · exact ih _ (step_onTrack h s hf)
    · exact hf

lemma onTrack_start (invocation : Invocation) (gasLimit : Nat) :
    (Frame.start invocation gasLimit).OnTrack :=
  ⟨⟨nofun, Nat.zero_le _⟩, fun _ => .inr .first⟩

/-- A frame keeps what it was called with. -/
lemma steps_invocation (h : host.Spectates) (fuel : Nat) (f : Frame) (s : σ) :
    (host.steps fuel f s).1.toInvocation = f.toInvocation := by
  have hhooks : host.Heeds (fun x => x.1.toInvocation = f.toInvocation)
      (fun x => x.1.toInvocation = f.toInvocation) :=
    ⟨fun {f' s'} hx => (h.beforeStep f' s').symm ▸ hx, h.afterStep, fun hx => hx, fun hx => hx⟩
  exact ((host.upholds_invocation f.toInvocation).steps (fun _ _ _ _ hx => hx) hhooks fuel
    ⟨rfl, fun _ => rfl⟩).1

end Host

/-! ## Pushes -/

namespace Exec

/-- The word of a push is spelled by the bytes behind it. -/
lemma toNat_pushValue {c : Code} {pc n : Nat} (hstart : c.IsBoundary pc)
    (hbyte : immediateSize (c.byteAt pc) = n) :
    ((if n = 0 then 0 else (c.jumpTable.pushValue? pc).getD 0 : Word)).toNat =
      ∑ i ∈ Finset.range n, (c.byteAt (pc + 1 + i)).toNat * 256 ^ (n - 1 - i) := by
  split_ifs with hn
  · rw [hn]
    rfl
  · have hlt : pc < c.bytes.size := by
      by_contra hge
      rw [Code.byteAt_of_le (Nat.le_of_not_lt hge)] at hbyte
      exact hn hbyte.symm
    rw [Code.byteAt_of_lt hlt] at hbyte
    have hle := immediateSize_le c.bytes[pc]
    have hvalue := JumpTable.pushValue?_analyze (hstart.resolve_left (Nat.not_le_of_lt hlt)) hlt
      (hbyte ▸ Nat.pos_of_ne_zero hn)
    rw [Code.jumpTable_eq, hvalue, Option.getD_some, Bytes.toNat_toWord_window _ _ hle, hbyte]
    rfl

/-- A push that is active, paid for and has room puts its word on the stack; otherwise it halts the
frame. -/
lemma perform_push (host : Host σ) {n : Nat} {f : Frame} (s : σ) (hf : f.isRunning = true)
    (hpush : f.instruction? = some (.push n)) :
    let f' := ((next host).perform (f, s)).1
    (f'.isRunning = true ↔ (Instruction.push n).isActive f.features = true ∧
      Gas.base f.features (.push n) ≤ f.gas.remaining ∧ f.stack.height < stackLimit) ∧
    (f'.isRunning = true → f'.stack.words =
      (if n = 0 then 0 else (f.code.jumpTable.pushValue? f.pc).getD 0) :: f.stack.words) := by
  have hfetch := fetch_run hpush s
  unfold perform
  rw [next_eq]
  split at hfetch
  · rename_i hpaid
    rw [Program.run_bind_ok hfetch]
    simp only [Instruction.run, pushImmediate]
    rw [frame_bind_run]
    simp only [Nat.add_sub_cancel]
    have hrun := push_run (if n = 0 then 0 else (f.code.jumpTable.pushValue? f.pc).getD 0)
      { f with
        gas := { f.gas with remaining := f.gas.remaining - Gas.base f.features (.push n) }
        pc := f.pc + 1 } s
    unfold Stack.push? at hrun
    by_cases hroom : f.stack.height < stackLimit
    · rw [dif_pos hroom] at hrun
      rw [Program.run_bind_ok hrun]
      exact ⟨⟨fun _ => ⟨hpaid.1, hpaid.2, hroom⟩, fun _ => hf⟩, fun _ => rfl⟩
    · rw [dif_neg hroom] at hrun
      rw [Program.run_bind_error hrun]
      exact ⟨⟨nofun, fun h => absurd h.2.2 hroom⟩, nofun⟩
  · rename_i hunpaid
    rw [Program.run_bind_error hfetch]
    have hhalted : (if (Instruction.push n).isActive f.features then Status.outOfGas
        else .inactiveOpcode) ≠ .running := by split <;> decide
    exact ⟨⟨fun h => absurd (eq_of_beq h) hhalted, fun h => absurd ⟨h.1, h.2.1⟩ hunpaid⟩,
      fun h => absurd (eq_of_beq h) hhalted⟩

end Exec

/-- Control flow stays on instruction boundaries. However far a frame has come on a host that leaves
frames alone, it is about to run an instruction that starts where the frame is, or its code is over;
every subroutine returns to such a position right behind its call, and there are at most 1023; and a
push that is active, paid for and has room, and no other, puts on the stack the number that the
bytes behind it spell. -/
theorem Host.steps_boundary (h : host.Spectates) (invocation : Invocation) (gasLimit fuel : Nat)
    (s : σ) :
    let x := host.steps fuel (Frame.start invocation gasLimit) s
    let code := invocation.code
    (x.1.isRunning = true → code.size ≤ x.1.pc ∨ code.bytes.Starts x.1.pc) ∧
    (∀ pc ∈ x.1.returnStack, (code.size ≤ pc ∨ code.bytes.Starts pc) ∧
      ∃ call, code.bytes.Starts call ∧ code.byteAt call = 0x5e ∧ pc = call + 1) ∧
    x.1.returnStack.length ≤ 1023 ∧
    ∀ n, x.1.isRunning = true → x.1.instruction? = some (.push n) →
      let f := (host.step x.1 x.2).1
      (f.isRunning = true ↔ (Instruction.push n).isActive invocation.features = true ∧
        Gas.base invocation.features (.push n) ≤ x.1.gas.remaining ∧
        x.1.stack.height < stackLimit) ∧
      (f.isRunning = true → ∃ w : Word, f.stack.words = w :: x.1.stack.words ∧
        w.toNat =
          ∑ i ∈ Finset.range n, (code.byteAt (x.1.pc + 1 + i)).toNat * 256 ^ (n - 1 - i)) := by
  intro x code
  have htrack : x.1.OnTrack := steps_onTrack h fuel s (onTrack_start invocation gasLimit)
  have hinvocation : x.1.toInvocation = invocation := steps_invocation h fuel _ s
  have hcode : x.1.code = code := congrArg Invocation.code hinvocation
  have hfeatures : x.1.features = invocation.features := congrArg Invocation.features hinvocation
  refine ⟨fun hrunning => ?_, fun pc hpc => ?_, htrack.nests.length_le, fun n hrunning hpush => ?_⟩
  · exact hcode ▸ htrack.boundary hrunning
  · exact hcode ▸ htrack.nests.resumes pc hpc
  · have hboundary := htrack.boundary hrunning
    have hbyte := (Instruction.fitsByte_of_decode hpush).1
    have hword := Exec.toNat_pushValue hboundary hbyte
    obtain ⟨hgoes, hvalue⟩ :=
      Exec.perform_push host (host.beforeStep x.1 x.2).2 hrunning hpush
    rw [← hfeatures, ← hcode]
    dsimp only
    rw [step_frame h hrunning]
    exact ⟨hgoes, fun hgoes' => ⟨_, hvalue hgoes', hword⟩⟩

lemma Sandbox.spectates_host : Sandbox.host.Spectates := ⟨fun _ _ => rfl, fun _ _ => rfl⟩

/-- A push of two bytes at the end of the code, one of which is missing. -/
def Invocation.truncated : Invocation where
  code := .ofHashed #[0x61, 0x5b] 0
  features := .empty

/-- The byte of a jump destination that a push carries is part of its word, and the missing byte is
zero. -/
theorem Sandbox.step_truncated :
    Sandbox.host.Spectates ∧
      (Sandbox.host.step (Frame.start .truncated 10) {}).1.stack.words = [0x5b00] := by
  have hrunning : (Frame.start .truncated 10).isRunning = true := rfl
  have hpush : (Frame.start .truncated 10).instruction? = some (.push 2) := by decide
  obtain ⟨-, -, -, hpushes⟩ := Host.steps_boundary spectates_host .truncated 10 0 {}
  obtain ⟨hgoes, hvalue⟩ := hpushes 2 hrunning hpush
  have hpaid : Gas.base Features.empty (.push 2) ≤ 10 := by decide
  obtain ⟨w, hwords, hw⟩ := hvalue (hgoes.2 ⟨rfl, hpaid, by decide⟩)
  have hword : w = 0x5b00 := BitVec.eq_of_toNat_eq hw
  exact ⟨spectates_host, hword ▸ hwords⟩

end Evm
