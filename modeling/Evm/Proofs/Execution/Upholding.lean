import Evm.Proofs.Execution.Moves

/-!
# Properties of a frame and its host

`Moves` relates the start of a run to its end without the refund counter and without the status.
Here a property `I` of frame and host is carried through a frame together with how the frame ends: a
frame that halts is left with a weaker property `J`, and one that halts successfully still with `I`
(`Exec.Meets`). `Host.Upholds` says what that takes: the property does not look at the stack, the
memory or the gas of the frame, it grows with the refund counter, and the operations of the host
respect it, a storage write together with the refund that it earns and a call or creation together
with the refund that it brings home. From this every instruction meets it
(`Exec.meets_instruction`), and so does every run (`Host.Upholds.run`). -/

namespace Evm

variable {σ α β : Type} {I J : Frame × σ → Prop} {host : Host σ}

lemma Status.isFatal_of_isRevert {s : Status} (h : s.isRevert = true) : s.isFatal = false := by
  cases s <;> first | rfl | contradiction

/-- The later frame was called with the same, is at the same place, and has lost no refund. -/
structure Frame.Stays (f f' : Frame) : Prop where
  invocation : f'.toInvocation = f.toInvocation
  pc : f'.pc = f.pc
  returnStack : f'.returnStack = f.returnStack
  refunded : f.gas.refunded ≤ f'.gas.refunded

/-- Work on a frame leaves it where it is. -/
lemma Frame.Works.stays {f f' : Frame} (h : f.Works f') : f.Stays f' :=
  ⟨h.gains.invocation, h.pc, h.returnStack, h.refunded.ge⟩

/-- The frame with the refund of a frame that has ended below it, or of a storage write. -/
def Frame.withRefund (f : Frame) (refund : Int) : Frame :=
  { f with gas := f.gas.addRefund refund }

/-- The answer of an operation of a host, or its failure, which halts the frame. -/
def Host.Answered (I J : Frame × σ → Prop) (f : Frame) : Option α × σ → Prop
  | (some _, s) => I (f, s)
  | (none, s) => J (f, s)

/-! ## Programs -/

namespace Exec

/-- How a program has ended: within `I`, or with the frame halted within `J`, and within `I` as well
if the frame has succeeded. -/
def Within (I J : Frame × σ → Prop) : Except Status α × Frame × σ → Prop
  | (.ok _, x) => I x
  | (.error status, x) => J x ∧ (status.isOk = true → I x)

lemma Within.ite {c : Prop} [Decidable c] {p p' : Exec σ α} {x : Frame × σ}
    (hp : c → Within I J (p.run x)) (hp' : ¬c → Within I J (p'.run x)) :
    Within I J ((if c then p else p').run x) := by
  split
  · exact hp ‹_›
  · exact hp' ‹_›

/-- From a state within `I` the program goes on within `I`, or it halts the frame within `J`, and
within `I` as well if the frame has succeeded. -/
def Meets (I J : Frame × σ → Prop) (p : Exec σ α) : Prop := ∀ x, I x → Within I J (p.run x)

namespace Meets

variable {p p' : Exec σ α} {q : α → Exec σ β}

lemma pure (a : α) : Meets I J (Pure.pure a : Exec σ α) := fun _ h => h

lemma bind (hp : Meets I J p) (hq : ∀ a, Meets I J (q a)) : Meets I J (p >>= q) := by
  intro x hx
  have hpx := hp x hx
  rw [Program.run_bind]
  rcases hrun : p.run x with ⟨_ | a, y⟩ <;> rw [hrun] at hpx
  · exact hpx
  · exact hq a y hpx

lemma ite {c : Prop} [Decidable c] (hp : Meets I J p) (hp' : Meets I J p') :
    Meets I J (if c then p else p') := by
  split
  · exact hp
  · exact hp'

lemma frame : Meets I J (Exec.frame : Exec σ Frame) := fun _ h => h

/-- What is read of the frame may be used. -/
lemma frame_bind {q : Frame → Exec σ β} (h : ∀ f s, I (f, s) → Within I J ((q f).run (f, s))) :
    Meets I J (Exec.frame >>= q) := by
  rintro ⟨f, s⟩ hx
  rw [frame_bind_run]
  exact h f s hx

lemma tell {op : StateM σ α} (h : ∀ f s, I (f, s) → I (f, (op s).2)) : Meets I J (Exec.tell op) :=
  fun x hx => h x.1 x.2 hx

lemma update {g : Frame → Frame} (hg : ∀ f s, I (f, s) → I (g f, s)) :
    Meets I J (Exec.update g : Exec σ Unit) := fun x hx => hg x.1 x.2 hx

lemma ask {op : HostM σ α} (hop : ∀ f s, I (f, s) → Host.Answered I J f (op.run s)) :
    Meets I J (Exec.ask op) := by
  rintro ⟨f, s⟩ hx
  have hanswer := hop f s hx
  unfold Exec.ask
  rw [tell_bind_run]
  rcases hrun : op.run s with ⟨_ | a, s'⟩ <;> rw [hrun] at hanswer
  · exact ⟨hanswer, nofun⟩
  · exact hanswer

end Meets

end Exec

/-! ## Hosts -/

/-- What a frame below has come to: its refund counts if it has succeeded. -/
structure Host.Returned (I J : Frame × σ → Prop) (f : Frame) (o : Outcome) (s : σ) : Prop where
  abort : J (f, s)
  ok : o.status.isOk = true → I (f.withRefund o.gas.refunded, s)
  failed : o.status.isOk = false → o.status.isFatal = false → I (f, s)

/-- The operations of the host respect the two properties. -/
structure Host.Upholds (host : Host σ) (I J : Frame × σ → Prop) : Prop where
  abort : ∀ {x}, I x → J x
  stays : ∀ {f f' s}, f.Stays f' → I (f, s) → I (f', s)
  staysAborted : ∀ {f f' s}, f.Stays f' → J (f, s) → J (f', s)
  presence : ∀ {f s} a, I (f, s) → Answered I J f ((host.presence a).run s)
  balance : ∀ {f s} a, I (f, s) → Answered I J f ((host.balance a).run s)
  code : ∀ {f s} a, I (f, s) → Answered I J f ((host.code a).run s)
  codeHash : ∀ {f s} a, I (f, s) → Answered I J f ((host.codeHash a).run s)
  loadSlot : ∀ {f s} a index, I (f, s) → Answered I J f ((host.loadSlot a index).run s)
  storeSlot : ∀ {f s} a index value, I (f, s) →
    match (host.storeSlot a index value).run s with
    | (some write, s') =>
      J (f, s') ∧ I (f.withRefund (Gas.slotRefund f.features write.value), s')
    | (none, s') => J (f, s')
  loadTransient : ∀ {f s} a index, I (f, s) → I (f, (host.loadTransient a index s).2)
  storeTransient : ∀ {f s} a index value, I (f, s) → I (f, (host.storeTransient a index value s).2)
  log : ∀ {f s} entry, I (f, s) → I (f, (host.log entry s).2)
  selfDestruct : ∀ {f s} a beneficiary, I (f, s) →
    Answered I J f ((host.selfDestruct a beneficiary).run s)
  create : ∀ {f s} request, I (f, s) →
    Returned I J f (host.create request s).1.outcome (host.create request s).2
  call : ∀ {f s} request, I (f, s) →
    Returned I J f (host.call request s).1.outcome (host.call request s).2

namespace Exec

section

variable (h : host.Upholds I J)

include h

/-! ## Primitive steps -/

lemma meets_work {p : Exec σ α} (hp : Work p) : Meets I J p := by
  rintro ⟨f, s⟩ hx
  obtain ⟨f', hrun, hf, -⟩ := hp f s
  have hx' := h.stays hf.stays hx
  rw [← hrun] at hx'
  rcases hp : p.run (f, s) with ⟨_ | a, y⟩ <;> rw [hp] at hx'
  · exact ⟨h.abort hx', fun _ => hx'⟩
  · exact hx'

/-! ## Instructions that ask the host -/

lemma meets_accountField (field : AccountField) : Meets I J (accountField host field) := by
  refine .bind (meets_work h work_operand) fun w => .bind (.ask fun f s hx => ?_) fun _ =>
    .bind .frame fun _ => .bind (meets_work h (work_charge _)) fun _ =>
      meets_work h (work_setTop _)
  cases field with
  | balance => exact h.balance _ hx
  | codeHash => exact h.codeHash _ hx
  | codeSize =>
    have hcode := h.code w.toAddress hx
    unfold loadAccountField
    rw [HostM.run_bind]
    rcases hrun : (host.code w.toAddress).run s with ⟨_ | code, s'⟩ <;> rw [hrun] at hcode <;>
      exact hcode

lemma meets_selfBalance : Meets I J (selfBalance host) :=
  .bind .frame fun _ => .bind (.ask fun _ _ => h.balance _) fun _ =>
    meets_work h (work_push _)

lemma meets_extCodeCopy : Meets I J (extCodeCopy host) :=
  .bind (meets_work h work_pop4) fun _ => .bind (.ask fun _ _ => h.code _) fun _ =>
    .bind (meets_work h (work_count _ _ rfl)) fun _ => .bind .frame fun _ =>
      .bind (meets_work h (work_chargePrice _)) fun _ =>
        meets_work h (work_copyToMemory _ _ _ _)

lemma meets_sload : Meets I J (sload host) :=
  .bind (meets_work h work_operand) fun _ => .bind .frame fun _ =>
    .bind (.ask fun _ _ => h.loadSlot _ _) fun _ => .bind .frame fun _ =>
      .bind (meets_work h (work_charge _)) fun _ => meets_work h (work_setTop _)

/-- Between a write and its refund only the price can halt the frame. -/
lemma meets_sstore : Meets I J (sstore host) := by
  refine .bind (meets_work h work_forbidStatic) fun _ => .bind (meets_work h work_pop2) fun _ =>
    .frame_bind fun f s hx => ?_
  have hstore (index value : Word) : Within I J ((do
      let write ← ask (host.storeSlot f.address index value)
      charge (Gas.slotStore f.features write.value write.isCold)
      update fun f => { f with
        gas := f.gas.addRefund (Gas.slotRefund f.features write.value) } : Exec σ Unit).run
      (f, s)) := by
    have hwrite := h.storeSlot f.address index value hx
    unfold ask
    rw [bind_assoc, tell_bind_run]
    rcases hrun : (host.storeSlot f.address index value).run s with ⟨_ | write, s'⟩ <;>
      rw [hrun] at hwrite
    · exact ⟨hwrite, nofun⟩
    · obtain ⟨hj, hi⟩ := hwrite
      have hcharge := charge_run (Gas.slotStore f.features write.value write.isCold) f s'
      simp only [pure_bind]
      split at hcharge
      · rw [Program.run_bind_ok hcharge]
        exact h.stays (f := f.withRefund _) ⟨rfl, rfl, rfl, le_rfl⟩ hi
      · rw [Program.run_bind_error hcharge]
        exact ⟨hj, nofun⟩
  split
  · exact ⟨h.abort hx, nofun⟩
  · exact hstore _ _

lemma meets_tload : Meets I J (tload host) :=
  .bind (meets_work h work_operand) fun _ => .bind .frame fun _ =>
    .bind (.tell fun _ _ => h.loadTransient _ _) fun _ => meets_work h (work_setTop _)

lemma meets_tstore : Meets I J (tstore host) :=
  .bind (meets_work h work_forbidStatic) fun _ => .bind (meets_work h work_pop2) fun _ =>
    .bind .frame fun _ => .tell fun _ _ => h.storeTransient _ _ _

lemma meets_log (topics : Nat) : Meets I J (log host topics) :=
  .bind (meets_work h work_forbidStatic) fun _ => .bind (meets_work h work_pop2) fun _ =>
    .bind (meets_work h (work_count _ _ rfl)) fun _ =>
      .bind (meets_work h (work_chargePrice _)) fun _ =>
        .bind (meets_work h (work_readMemory _ _)) fun _ =>
          .bind (meets_work h (work_pop _)) fun _ => .bind .frame fun _ => .tell fun _ _ => h.log _

lemma meets_selfDestruct : Meets I J (selfDestruct host) := by
  have hend (cost : Nat) : Meets I J (do charge cost; halt .selfDestruct : Exec σ Unit) :=
    .bind (meets_work h (work_charge cost)) fun _ => meets_work h (.halt _ rfl)
  refine .bind (meets_work h work_forbidStatic) fun _ => .bind (meets_work h work_pop1) fun _ =>
    .bind .frame fun _ => .bind (.ask fun _ _ => h.selfDestruct _ _) fun _ =>
      .bind .frame fun _ => .ite (.bind (.update fun f s => ?_) fun _ => hend _) (hend _)
  exact h.stays ⟨rfl, rfl, rfl, le_add_of_nonneg_right (by decide)⟩

/-! ## Instructions that say where the frame goes on -/

section

variable (hgo : ∀ f pc returnStack s, I (f, s) → I ({ f with pc, returnStack }, s))

include hgo

lemma meets_jumpTo (target : Word) : Meets I J (jumpTo target) :=
  .bind (meets_work h (work_count _ _ rfl)) fun _ => .bind .frame fun _ =>
    .ite (.update fun _ _ hx => hgo _ _ _ _ hx) (meets_work h (.halt _ rfl))

lemma meets_jumpSub : Meets I J jumpSub :=
  .bind (meets_work h work_pop1) fun _ => .bind (meets_work h (work_count _ _ rfl)) fun _ =>
    .bind .frame fun _ => .ite (meets_work h (.halt _ rfl))
      (.ite (meets_work h (.halt _ rfl)) (.update fun _ _ hx => hgo _ _ _ _ hx))

lemma meets_returnSub : Meets I J returnSub := by
  refine .bind .frame fun f => ?_
  split
  · exact meets_work h (.halt _ rfl)
  · exact .update fun _ _ hx => hgo _ _ _ _ hx

lemma meets_pushImmediate (size : Nat) : Meets I J (pushImmediate size) :=
  .bind .frame fun _ => .bind (meets_work h (work_push _)) fun _ =>
    .update fun _ _ hx => hgo _ _ _ _ hx

end

/-! ## Creations and calls -/

omit h in
/-- A word is pushed before the frame gets something back, so the push itself runs on a frame that
still lacks it. -/
lemma within_push_update (w : Word) {g : Frame → Frame} {f : Frame} {s : σ} (habort : J (f, s))
    (hg : ∀ stack, I (g { f with stack }, s)) :
    Within I J ((do push w; update g : Exec σ Unit).run (f, s)) := by
  have hrun := push_run w f s
  split at hrun
  · rw [Program.run_bind_ok hrun]
    exact hg _
  · rw [Program.run_bind_error hrun]
    exact ⟨habort, nofun⟩

/-- What a frame takes home from a creation. -/
lemma within_settleCreate {response : CreateResponse} {f : Frame} {s : σ}
    (hreturned : Host.Returned I J f response.outcome s) :
    Within I J ((settleCreate response).run (f, s)) := by
  obtain ⟨habort, hok, hfailed⟩ := hreturned
  have habort' {f' : Frame} (hf : f.Stays f') : J (f', s) := h.staysAborted hf habort
  unfold settleCreate
  rw [update_bind_run]
  refine .ite (fun hisOk => ?_) fun hisOk => .ite (fun hisRevert => ?_) fun _ =>
    .ite (fun _ => ?_) fun hisFatal => ?_
  · exact within_push_update _ (habort' ⟨rfl, rfl, rfl, le_rfl⟩) fun _ =>
      h.stays (f := f.withRefund _) ⟨rfl, rfl, rfl, le_rfl⟩ (hok hisOk)
  · exact within_push_update _ (habort' ⟨rfl, rfl, rfl, le_rfl⟩) fun _ =>
      h.stays (f := f) ⟨rfl, rfl, rfl, le_rfl⟩
        (hfailed (Bool.eq_false_iff.2 hisOk) (Status.isFatal_of_isRevert hisRevert))
  · exact ⟨habort' ⟨rfl, rfl, rfl, le_rfl⟩, nofun⟩
  · exact meets_work h (work_push 0) _ (h.stays (f := f) ⟨rfl, rfl, rfl, le_rfl⟩
      (hfailed (Bool.eq_false_iff.2 hisOk) (Bool.eq_false_iff.2 hisFatal)))

/-- What a frame takes home from a call. -/
lemma within_settleCall {response : CallResponse} {f : Frame} {s : σ}
    (hreturned : Host.Returned I J f response.outcome s) :
    Within I J ((settleCall response).run (f, s)) := by
  obtain ⟨habort, hok, hfailed⟩ := hreturned
  unfold settleCall storeOutput
  rw [update_bind_run]
  refine .ite (fun hisOk => ?_) fun hisOk => .ite (fun hisRevert => ?_) fun _ =>
    .ite (fun _ => ?_) fun hisFatal => ?_
  · rw [update_bind_run, update_bind_run]
    exact meets_work h (work_push 1) _
      (h.stays (f := f.withRefund _) ⟨rfl, rfl, rfl, le_rfl⟩ (hok hisOk))
  · rw [update_bind_run, update_bind_run]
    exact meets_work h (work_push 0) _ (h.stays (f := f) ⟨rfl, rfl, rfl, le_rfl⟩
      (hfailed (Bool.eq_false_iff.2 hisOk) (Status.isFatal_of_isRevert hisRevert)))
  · exact ⟨h.staysAborted (f := f) ⟨rfl, rfl, rfl, le_rfl⟩ habort, nofun⟩
  · exact meets_work h (work_push 0) _ (h.stays (f := f) ⟨rfl, rfl, rfl, le_rfl⟩
      (hfailed (Bool.eq_false_iff.2 hisOk) (Bool.eq_false_iff.2 hisFatal)))

lemma meets_create (salted : Bool) : Meets I J (create host salted) := by
  refine .bind (meets_work h work_forbidStatic) fun _ => .bind (meets_work h work_pop3) fun v =>
    .bind (meets_work h (work_count _ _ rfl)) fun len =>
      .bind (meets_work h (work_initCode host _ _)) fun initCode => ?_
  have hgrant : Work (grantToCreation : Exec σ Nat) :=
    .bind .frame fun _ => .bind (work_active _) fun _ => .bind (work_charge _) fun _ => .pure _
  have hrun (salt? : Option Word) : Meets I J (do
      let gasLimit ← grantToCreation
      let caller := (← frame).address
      settleCreate (← tell (host.create { caller, salt?, value := v.1, initCode, gasLimit }))) :=
    .bind (meets_work h hgrant) fun _ => .frame_bind fun f s hx => by
      rw [tell_bind_run]
      exact within_settleCreate h (h.create _ hx)
  exact .ite (.bind (meets_work h ((work_salt _).map _)) fun _ => hrun _)
    (.bind (.pure _) fun _ => hrun _)

lemma meets_callGrant (scheme : CallScheme) (callee : Address) (movesValue : Bool)
    (requested : Nat) : Meets I J (callGrant host scheme callee movesValue requested) :=
  .bind (.ask fun _ _ => h.presence _) fun _ => .bind .frame fun _ =>
    .bind (meets_work h (work_charge _)) fun _ => .ite (.bind .frame fun _ => .pure _) (.pure _)

lemma meets_call (scheme : CallScheme) : Meets I J (call host scheme) := by
  refine .bind (meets_work h (work_callOperands scheme)) fun v => ?_
  obtain ⟨gas, callee, value⟩ := v
  have hrun : Meets I J (do
      let windows ← callWindows
      let grant ← callGrant host scheme callee (value != 0) gas.toCount
      charge grant
      let gasLimit := if value != 0 then Count.satAdd grant Gas.callStipend else grant
      let request := callRequest (← frame) scheme callee value windows.1 gasLimit windows.2
      settleCall (← tell (host.call request))) :=
    .bind (meets_work h work_callWindows) fun _ => .bind (meets_callGrant h _ _ _ _) fun _ =>
      .bind (meets_work h (work_charge _)) fun _ => .frame_bind fun f s hx => by
        rw [tell_bind_run]
        exact within_settleCall h (h.call _ hx)
  exact .ite
    (.bind .frame fun _ => .ite (.bind (meets_work h (.halt _ rfl)) fun _ => hrun) hrun) hrun

/-! ## Runs -/

/-- Every instruction meets the properties that the host upholds; the ones that say where the frame
goes on do so if the properties do not look at that. -/
lemma meets_instruction {i : Instruction}
    (hgo : i.redirects = true →
      ∀ f pc returnStack s, I (f, s) → I ({ f with pc, returnStack }, s)) :
    Meets I J (i.run host) := by
  cases i with
  | accountField field => exact meets_accountField h field
  | selfBalance => exact meets_selfBalance h
  | extCodeCopy => exact meets_extCodeCopy h
  | sload => exact meets_sload h
  | sstore => exact meets_sstore h
  | tload => exact meets_tload h
  | tstore => exact meets_tstore h
  | jump => exact .bind (meets_work h work_pop1) fun _ => meets_jumpTo h (hgo rfl) _
  | jumpI =>
    exact .bind (meets_work h work_pop2) fun _ => .ite (meets_jumpTo h (hgo rfl) _) (.pure _)
  | returnSub => exact meets_returnSub h (hgo rfl)
  | jumpSub => exact meets_jumpSub h (hgo rfl)
  | push size => exact meets_pushImmediate h (hgo rfl) size
  | log topics => exact meets_log h topics
  | create salted => exact meets_create h salted
  | call scheme => exact meets_call h scheme
  | selfDestruct => exact meets_selfDestruct h
  | _ => exact meets_work h (work_instruction host rfl)

lemma meets_next (hgo : ∀ f pc returnStack s, I (f, s) → I ({ f with pc, returnStack }, s)) :
    Meets I J (next host) := by
  refine .bind .frame fun f => ?_
  split
  · exact meets_work h (.halt _ rfl)
  · exact .ite (.bind (meets_work h (work_charge _)) fun _ =>
      .bind (.update fun f s hx => hgo f (f.pc + 1) f.returnStack s hx) fun _ =>
        meets_instruction h fun _ => hgo) (meets_work h (.halt _ rfl))

end

end Exec

namespace Host

/-- How a frame stands: within `J`, and within `I` unless something has gone wrong. -/
def Stands (I J : Frame × σ → Prop) (x : Frame × σ) : Prop := J x ∧ (x.1.status.isOk = true → I x)

/-- The hooks of the host respect the two properties, and the one after a step leaves the frame as
it is. -/
structure Heeds (host : Host σ) (I J : Frame × σ → Prop) : Prop where
  beforeStep : ∀ {f s}, I (f, s) → I (host.beforeStep f s)
  afterStep_frame : ∀ f s, (host.afterStep f s).1 = f
  afterStep : ∀ {f s}, I (f, s) → I (f, (host.afterStep f s).2)
  afterAborted : ∀ {f s}, J (f, s) → J (f, (host.afterStep f s).2)

/-- A frame that goes on is within `I`. -/
lemma Stands.of_isRunning {x : Frame × σ} (h : Stands I J x) (hrunning : x.1.isRunning = true) :
    I x := by
  have hstatus : x.1.status = .running := eq_of_beq hrunning
  exact h.2 (hstatus ▸ rfl)

namespace Upholds

variable (h : host.Upholds I J)

include h

/-- Performing a program that meets the properties leaves the frame to stand by them. -/
lemma perform {p : Exec σ Unit} (hp : Exec.Meets I J p) {x : Frame × σ} (hx : I x) :
    Stands I J (p.perform x) := by
  have hpx := hp x hx
  unfold Exec.perform
  rcases hrun : p.run x with ⟨status | _, f, s⟩ <;> rw [hrun] at hpx
  · exact ⟨h.staysAborted (f := f) ⟨rfl, rfl, rfl, le_rfl⟩ hpx.1,
      fun hok => h.stays (f := f) ⟨rfl, rfl, rfl, le_rfl⟩ (hpx.2 hok)⟩
  · exact ⟨h.abort hpx, fun _ => hpx⟩

variable (hgo : ∀ f pc returnStack s, I (f, s) → I ({ f with pc, returnStack }, s))
  (hhooks : host.Heeds I J)

include hgo hhooks

lemma step {f : Frame} {s : σ} (hx : I (f, s)) : Stands I J (host.step f s) := by
  have hbefore := hhooks.beforeStep hx
  unfold Host.step
  rcases hrun : host.beforeStep f s with ⟨f₁, s₁⟩
  rw [hrun] at hbefore
  dsimp only
  split
  · have hstands := h.perform (Exec.meets_next h hgo) hbefore
    rcases hnext : (Exec.next host).perform (f₁, s₁) with ⟨f₂, s₂⟩
    rw [hnext] at hstands
    have hframe := hhooks.afterStep_frame f₂ s₂
    have hafter : host.afterStep f₂ s₂ = (f₂, (host.afterStep f₂ s₂).2) := Prod.ext hframe rfl
    dsimp only
    rw [hafter]
    exact ⟨hhooks.afterAborted hstands.1, fun hok => hhooks.afterStep (hstands.2 hok)⟩
  · exact ⟨h.abort hbefore, fun _ => hbefore⟩

lemma steps (fuel : Nat) {f : Frame} {s : σ} (hx : Stands I J (f, s)) :
    Stands I J (host.steps fuel f s) := by
  induction fuel generalizing f s with
  | zero => exact hx
  | succ fuel ih =>
    unfold Host.steps
    split
    · rename_i hrunning
      exact ih (h.step hgo hhooks (hx.of_isRunning hrunning))
    · exact hx

/-- What holds of a frame and its host at the start holds at the end, as far as the frame has come.
-/
theorem run {f : Frame} {s : σ} (hx : I (f, s)) : Stands I J (host.run f s) :=
  h.steps hgo hhooks _ ⟨h.abort hx, fun _ => hx⟩

end Upholds

end Host

end Evm
