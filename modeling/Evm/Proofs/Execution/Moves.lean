import Mathlib.Logic.Relation
import Evm.Proofs.Execution.Local

/-!
# The moves of a frame

Everything that a frame does to its host is a sequence of moves: work of its own, one operation of
the host, or a whole call or creation. `Host.Move` lists them together with what the instruction has
made sure of before, and `Host.run_reaches` says that the run of a frame consists of them. Properties
of runs are proved from this by cases on the move, without going through the instructions again.
-/

namespace Evm

variable {σ α β : Type}

/-- One move of a frame on its host. What the frame was called with stays; state is changed by frames
that are not static only; and gas comes back from calls and creations as far as it was handed down. -/
inductive Host.Move (host : Host σ) : Frame × σ → Frame × σ → Prop
  | alone {f f' : Frame} {s : σ} (h : f.Gains 0 f') : Move host (f, s) (f', s)
  | presence {f : Frame} {s : σ} (a : Address) :
    Move host (f, s) (f, ((host.presence a).run s).2)
  | balance {f : Frame} {s : σ} (a : Address) :
    Move host (f, s) (f, ((host.balance a).run s).2)
  | code {f : Frame} {s : σ} (a : Address) :
    Move host (f, s) (f, ((host.code a).run s).2)
  | codeHash {f : Frame} {s : σ} (a : Address) :
    Move host (f, s) (f, ((host.codeHash a).run s).2)
  | loadSlot {f : Frame} {s : σ} (index : Word) :
    Move host (f, s) (f, ((host.loadSlot f.address index).run s).2)
  | storeSlot {f : Frame} {s : σ} (index value : Word) (hs : f.isStatic = false) :
    Move host (f, s) (f, ((host.storeSlot f.address index value).run s).2)
  | loadTransient {f : Frame} {s : σ} (index : Word) :
    Move host (f, s) (f, (host.loadTransient f.address index s).2)
  | storeTransient {f : Frame} {s : σ} (index value : Word) (hs : f.isStatic = false) :
    Move host (f, s) (f, (host.storeTransient f.address index value s).2)
  | log {f : Frame} {s : σ} (topics : List Word) (data : Bytes) (hs : f.isStatic = false) :
    Move host (f, s) (f, (host.log ⟨f.address, topics, data⟩ s).2)
  | selfDestruct {f : Frame} {s : σ} (beneficiary : Address) (hs : f.isStatic = false) :
    Move host (f, s) (f, ((host.selfDestruct f.address beneficiary).run s).2)
  | create {f f' : Frame} {s s' : σ} {salt? : Option Word} {value : Word} {initCode : Bytes}
    {gasLimit : Nat} {response : CreateResponse} (hs : f.isStatic = false)
    (hlimit : gasLimit ≤ f.gas.remaining)
    (hrun : host.create ⟨f.address, salt?, value, initCode, gasLimit⟩ s = (response, s'))
    (hinvocation : f'.toInvocation = f.toInvocation) (hgasLimit : f'.gas.limit = f.gas.limit)
    (hgas : f'.gas.remaining + gasLimit ≤ f.gas.remaining + response.outcome.gas.remaining) :
    Move host (f, s) (f', s')
  | call {f f' : Frame} {s s' : σ} {scheme : CallScheme} {callee : Address} {value : Word}
    {input : Bytes} {gasLimit : Nat} {out : Window} {response : CallResponse}
    (hs : scheme = .call → value ≠ 0 → f.isStatic = false)
    (hlimit : gasLimit ≤ f.gas.remaining)
    (hrun : host.call (Exec.callRequest f scheme callee value input gasLimit out) s = (response, s'))
    (hinvocation : f'.toInvocation = f.toInvocation) (hgasLimit : f'.gas.limit = f.gas.limit)
    (hgas : f'.gas.remaining + gasLimit ≤ f.gas.remaining + response.outcome.gas.remaining) :
    Move host (f, s) (f', s')

/-- The second state is reached from the first by moves. -/
abbrev Host.Reaches (host : Host σ) : Frame × σ → Frame × σ → Prop :=
  Relation.ReflTransGen host.Move

variable {host : Host σ} {x y : Frame × σ}

lemma Host.Move.invocation (h : host.Move x y) : y.1.toInvocation = x.1.toInvocation := by
  cases h with
  | alone h => exact h.invocation
  | create _ _ _ hinvocation => exact hinvocation
  | call _ _ _ hinvocation => exact hinvocation
  | _ => rfl

/-- What a frame was called with never changes. -/
lemma Host.Reaches.invocation (h : host.Reaches x y) : y.1.toInvocation = x.1.toInvocation := by
  induction h with
  | refl => rfl
  | tail _ hm ih => exact hm.invocation.trans ih

namespace Exec

/-- The call of an instruction depends on what the frame was called with only. -/
lemma callRequest_congr {f f' : Frame} (h : f'.toInvocation = f.toInvocation) (scheme : CallScheme)
    (callee : Address) (value : Word) (input : Bytes) (gasLimit : Nat) (out : Window) :
    callRequest f' scheme callee value input gasLimit out =
      callRequest f scheme callee value input gasLimit out := by
  cases scheme <;> simp only [callRequest, h]

lemma callRequest_gasLimit (f : Frame) (scheme : CallScheme) (callee : Address) (value : Word)
    (input : Bytes) (gasLimit : Nat) (out : Window) :
    (callRequest f scheme callee value input gasLimit out).gasLimit = gasLimit := by
  cases scheme <;> rfl

/-! ## Programs -/

variable {x₀ : Frame × σ}

lemma keeps_local {p : Exec σ α} (hp : Local p) : Keeps (host.Reaches x₀) p := by
  rintro ⟨f, s⟩ h
  obtain ⟨f', hrun, hf, -⟩ := hp f s
  rw [hrun]
  exact h.tail (.alone hf)

lemma keeps_work {p : Exec σ α} (hp : Work p) : Keeps (host.Reaches x₀) p := keeps_local hp.isLocal

lemma keeps_tell {op : StateM σ α}
    (h : ∀ f s, f.toInvocation = x₀.1.toInvocation → host.Move (f, s) (f, (op s).2)) :
    Keeps (host.Reaches x₀) (tell op) :=
  fun _ hx => hx.tail (h _ _ hx.invocation)

lemma keeps_ask {op : HostM σ α}
    (h : ∀ f s, f.toInvocation = x₀.1.toInvocation → host.Move (f, s) (f, (op.run s).2)) :
    Keeps (host.Reaches x₀) (ask op) := by
  refine .bind (keeps_tell h) fun a? => ?_
  cases a? with
  | none => exact .throw _
  | some a => exact .pure a

/-- What is read of the frame was there from the start as far as it never changes. -/
lemma keeps_frame_bind {q : Frame → Exec σ β}
    (h : ∀ f, f.toInvocation = x₀.1.toInvocation → Keeps (host.Reaches x₀) (q f)) :
    Keeps (host.Reaches x₀) (frame >>= q) := by
  rintro ⟨f, s⟩ hx
  rw [frame_bind_run]
  exact h f hx.invocation (f, s) hx

/-- Past the check the frame is not static. -/
lemma keeps_forbidStatic_bind {q : Exec σ β}
    (h : x₀.1.isStatic = false → Keeps (host.Reaches x₀) q) :
    Keeps (host.Reaches x₀) (do forbidStatic; q) := by
  rintro ⟨f, s⟩ hx
  have hinv : f.toInvocation = x₀.1.toInvocation := hx.invocation
  cases hs : f.isStatic with
  | true =>
    have hrun : (forbidStatic : Exec σ Unit).run (f, s) =
        (.error .stateChangeInStatic, (f, s)) := by
      unfold forbidStatic
      rw [frame_bind_run, hs]
      rfl
    rw [Program.run_bind_error hrun]
    exact hx
  | false =>
    have hrun : (forbidStatic : Exec σ Unit).run (f, s) = (.ok (), (f, s)) := by
      unfold forbidStatic
      rw [frame_bind_run, hs]
      rfl
    rw [Program.run_bind_ok hrun]
    exact h (hinv ▸ hs) (f, s) hx

/-! ## Instructions -/

/-- What is made of the answer of a host does not matter to the host. -/
lemma run_return_snd (op : HostM σ α) (g : α → β) (s : σ) :
    ((do return g (← op) : HostM σ β).run s).2 = (op.run s).2 := by
  rw [HostM.run_bind]
  rcases op.run s with ⟨_ | _, _⟩ <;> rfl

lemma keeps_accountField (field : AccountField) :
    Keeps (host.Reaches x₀) (accountField host field) := by
  refine .bind (keeps_work work_operand) fun w => .bind (keeps_ask fun f s _ => ?_) fun _ =>
    .bind (keeps_local .frame) fun _ => .bind (keeps_work (work_charge _)) fun _ =>
      keeps_work (work_setTop _)
  cases field with
  | balance => exact .balance _
  | codeHash => exact .codeHash _
  | codeSize =>
    unfold loadAccountField
    rw [run_return_snd]
    exact .code _

lemma keeps_selfBalance : Keeps (host.Reaches x₀) (selfBalance host) :=
  .bind (keeps_local .frame) fun _ => .bind (keeps_ask fun _ _ _ => .balance _) fun _ =>
    keeps_work (work_push _)

lemma keeps_extCodeCopy : Keeps (host.Reaches x₀) (extCodeCopy host) :=
  .bind (keeps_work work_pop4) fun _ => .bind (keeps_ask fun _ _ _ => .code _) fun _ =>
    .bind (keeps_work (work_count _ _ rfl)) fun _ => .bind (keeps_local .frame) fun _ =>
      .bind (keeps_work (work_chargePrice _)) fun _ => keeps_work (work_copyToMemory _ _ _ _)

lemma keeps_selfDestruct : Keeps (host.Reaches x₀) (selfDestruct host) := by
  refine keeps_forbidStatic_bind fun hs => .bind (keeps_work work_pop1) fun _ =>
    keeps_frame_bind fun f hf => .bind (keeps_ask fun f' s hf' => ?_) fun _ =>
      .bind (keeps_local .frame) fun _ => ?_
  · rw [show f.address = f'.address by rw [hf, hf']]
    exact .selfDestruct _ (hf' ▸ hs)
  · have hend (cost : Nat) : Local (do charge cost; halt .selfDestruct : Exec σ Unit) :=
      .bind (work_charge cost).isLocal fun _ => .halt _ rfl
    exact .ite (.bind (keeps_local (.update fun _ => ⟨rfl, rfl, le_rfl⟩)) fun _ =>
      keeps_local (hend _)) (keeps_local (hend _))

lemma keeps_sload : Keeps (host.Reaches x₀) (sload host) := by
  refine .bind (keeps_work work_operand) fun _ => keeps_frame_bind fun f hf =>
    .bind (keeps_ask fun f' s hf' => ?_) fun _ => .bind (keeps_local .frame) fun _ =>
      .bind (keeps_work (work_charge _)) fun _ => keeps_work (work_setTop _)
  rw [show f.address = f'.address by rw [hf, hf']]
  exact .loadSlot _

lemma keeps_sstore : Keeps (host.Reaches x₀) (sstore host) := by
  refine keeps_forbidStatic_bind fun hs => .bind (keeps_work work_pop2) fun _ =>
    keeps_frame_bind fun f hf => ?_
  have hstore (index value : Word) : Keeps (host.Reaches x₀) (do
      let write ← ask (host.storeSlot f.address index value)
      charge (Gas.slotStore f.features write.value write.isCold)
      update fun f => { f with gas := f.gas.addRefund (Gas.slotRefund f.features write.value) }) := by
    refine .bind (keeps_ask fun f' s hf' => ?_) fun _ =>
      .bind (keeps_work (work_charge _)) fun _ =>
        keeps_local (.update fun _ => ⟨rfl, rfl, le_rfl⟩)
    rw [show f.address = f'.address by rw [hf, hf']]
    exact .storeSlot _ _ (hf' ▸ hs)
  exact .ite (.bind (keeps_local (.halt _ rfl)) fun _ => hstore _ _) (hstore _ _)

lemma keeps_tload : Keeps (host.Reaches x₀) (tload host) := by
  refine .bind (keeps_work work_operand) fun _ => keeps_frame_bind fun f hf =>
    .bind (keeps_tell fun f' s hf' => ?_) fun _ => keeps_work (work_setTop _)
  rw [show f.address = f'.address by rw [hf, hf']]
  exact .loadTransient _

lemma keeps_tstore : Keeps (host.Reaches x₀) (tstore host) := by
  refine keeps_forbidStatic_bind fun hs => .bind (keeps_work work_pop2) fun _ =>
    keeps_frame_bind fun f hf => keeps_tell fun f' s hf' => ?_
  rw [show f.address = f'.address by rw [hf, hf']]
  exact .storeTransient _ _ (hf' ▸ hs)

lemma keeps_log (topics : Nat) : Keeps (host.Reaches x₀) (log host topics) := by
  refine keeps_forbidStatic_bind fun hs => .bind (keeps_work work_pop2) fun _ =>
    .bind (keeps_work (work_count _ _ rfl)) fun _ => .bind (keeps_work (work_chargePrice _)) fun _ =>
      .bind (keeps_work (work_readMemory _ _)) fun _ => .bind (keeps_work (work_pop _)) fun _ =>
        keeps_frame_bind fun f hf => keeps_tell fun f' s hf' => ?_
  rw [show f.address = f'.address by rw [hf, hf']]
  exact .log _ _ (hf' ▸ hs)

/-! ## Creations and calls -/

/-- A charge is paid before what comes after it runs. -/
lemma reaches_charge_bind {cost : Nat} {q : Unit → Exec σ β} {f : Frame} {s : σ}
    (hx : host.Reaches x₀ (f, s))
    (h : ∀ f', f'.toInvocation = f.toInvocation → f'.gas.limit = f.gas.limit →
      f'.gas.remaining + cost = f.gas.remaining → host.Reaches x₀ ((q ()).run (f', s)).2) :
    host.Reaches x₀ ((charge cost >>= q).run (f, s)).2 := by
  have hrun := charge_run cost f s
  split at hrun
  · rename_i hle
    rw [Program.run_bind_ok hrun]
    exact h _ rfl rfl (Nat.sub_add_cancel hle)
  · rw [Program.run_bind_error hrun]
    exact hx

lemma tell_bind_run (op : StateM σ α) (q : α → Exec σ β) (f : Frame) (s : σ) :
    (tell op >>= q).run (f, s) = (q (op s).1).run (f, (op s).2) := by
  have htell : (tell op).run (f, s) = (.ok (op s).1, (f, (op s).2)) := rfl
  exact Program.run_bind_ok htell

lemma keeps_create (salted : Bool) : Keeps (host.Reaches x₀) (create host salted) := by
  refine keeps_forbidStatic_bind fun hs => .bind (keeps_work work_pop3) fun v =>
    .bind (keeps_work (work_count _ _ rfl)) fun len =>
      .bind (keeps_work (work_initCode host _ _)) fun initCode => ?_
  have hrun (salt? : Option Word) : Keeps (host.Reaches x₀) (do
      let gasLimit ← grantToCreation
      let caller := (← frame).address
      settleCreate (← tell (host.create { caller, salt?, value := v.1, initCode, gasLimit }))) := by
    rintro ⟨f, s⟩ hx
    have hinv : f.toInvocation = x₀.1.toInvocation := hx.invocation
    unfold grantToCreation active
    simp only [bind_assoc, pure_bind]
    rw [frame_bind_run, frame_bind_run]
    refine reaches_charge_bind hx fun f₁ hf₁ hl₁ hgas₁ => ?_
    rw [frame_bind_run, tell_bind_run, show f₁.address = f.address by rw [hf₁]]
    obtain ⟨f₂, hrun, hf₂, -⟩ := yields_settleCreate _ f₁ _
    rw [hrun]
    have hgas₂ := hf₂.remaining
    refine hx.tail (.create (hinv ▸ hs) ?_ Prod.mk.eta.symm (hf₂.invocation.trans hf₁)
      (hf₂.limit.trans hl₁) ?_)
    · omega
    · omega
  exact .ite (.bind (keeps_work (.map (work_salt _) _)) fun _ => hrun _)
    (.bind (.pure _) fun _ => hrun _)

/-- The stipend that comes with value is paid for by the price of moving it. -/
lemma stipend_le_callPrice (features : Features) (cold createsAccount targetEmpty : Bool)
    (grant : Nat) :
    Count.satAdd grant Gas.callStipend ≤
      Gas.call features true cold createsAccount targetEmpty + grant := by
  have hle : Count.satAdd grant Gas.callStipend ≤ grant + Gas.callStipend := Nat.min_le_left _ _
  simp only [Gas.call, if_true, Gas.callStipend, Gas.callValue] at hle ⊢
  omega

/-- The gas that a call gets is a function of the frame. -/
lemma grant_run (features : Features) (requested : Nat) (f : Frame) (s : σ) :
    ∃ grant, (if features.has .eip150 then do
        return Nat.min (Gas.allButOne64th (← frame).gas.remaining) requested
      else return requested : Exec σ Nat).run (f, s) = (.ok grant, (f, s)) := by
  split
  · exact ⟨_, rfl⟩
  · exact ⟨_, rfl⟩

/-- What is left of a call once a static frame has been kept from sending value. -/
lemma keeps_permittedCall {scheme : CallScheme} (gas : Word) (callee : Address) {value : Word}
    (hs : scheme = .call → value ≠ 0 → x₀.1.isStatic = false) :
    Keeps (host.Reaches x₀) (do
      let (input, out) ← callWindows
      let grant ← callGrant host scheme callee (value != 0) gas.toCount
      charge grant
      let gasLimit := if value != 0 then Count.satAdd grant Gas.callStipend else grant
      let request := callRequest (← frame) scheme callee value input gasLimit out
      settleCall (← tell (host.call request))) := by
  refine .bind (keeps_work work_callWindows) fun windows => ?_
  unfold callGrant
  simp only [bind_assoc]
  refine .bind (keeps_ask fun _ _ _ => .presence callee) fun account => ?_
  rintro ⟨f, s⟩ hx
  have hinv : f.toInvocation = x₀.1.toInvocation := hx.invocation
  rw [frame_bind_run]
  refine reaches_charge_bind hx fun f₁ hf₁ hl₁ hgas₁ => ?_
  obtain ⟨grant, hgrant⟩ := grant_run f.features gas.toCount f₁ s
  rw [Program.run_bind_ok hgrant]
  have hx₁ : host.Reaches x₀ (f₁, s) := hx.tail (.alone ⟨hf₁, hl₁, by omega⟩)
  refine reaches_charge_bind hx₁ fun f₂ hf₂ hl₂ hgas₂ => ?_
  rw [frame_bind_run, tell_bind_run, callRequest_congr (hf₂.trans hf₁)]
  -- The stipend is not new gas: the price of moving value has paid for it.
  have hlimit : (if value != 0 then Count.satAdd grant Gas.callStipend else grant) +
      f₂.gas.remaining ≤ f.gas.remaining := by
    split
    · rename_i hv
      rw [hv] at hgas₁
      have hle := stipend_le_callPrice f.features account.isCold
        (scheme == .call && !account.value.exists_) (scheme == .call && account.value.isEmpty) grant
      omega
    · omega
  obtain ⟨f₃, hrun, hf₃, -⟩ := yields_settleCall _ f₂ _
  rw [hrun]
  have hgas₃ := hf₃.remaining
  refine hx.tail (.call (fun hcall hv => hinv ▸ hs hcall hv) ?_ Prod.mk.eta.symm
    (hf₃.invocation.trans (hf₂.trans hf₁)) (hf₃.limit.trans (hl₂.trans hl₁)) ?_)
  · omega
  · omega

lemma keeps_call (scheme : CallScheme) : Keeps (host.Reaches x₀) (call host scheme) := by
  refine .bind (keeps_work (work_callOperands scheme)) fun v => ?_
  obtain ⟨gas, callee, value⟩ := v
  dsimp only
  split
  · refine keeps_frame_bind fun f hf => ?_
    split
    · exact fun _ h => h
    · rename_i hs
      exact keeps_permittedCall gas callee fun _ _ => hf ▸ Bool.eq_false_iff.2 hs
  · rename_i hcall
    refine keeps_permittedCall gas callee fun hscheme hv => absurd ?_ hcall
    rw [hscheme, bne_iff_ne.2 hv]
    rfl

/-! ## Runs -/

/-- Every instruction consists of moves. -/
lemma keeps_instruction (i : Instruction) : Keeps (host.Reaches x₀) (i.run host) := by
  cases i with
  | accountField field => exact keeps_accountField field
  | selfBalance => exact keeps_selfBalance
  | extCodeCopy => exact keeps_extCodeCopy
  | sload => exact keeps_sload
  | sstore => exact keeps_sstore
  | tload => exact keeps_tload
  | tstore => exact keeps_tstore
  | jump => exact keeps_local local_jump
  | jumpI => exact keeps_local local_jumpI
  | returnSub => exact keeps_local local_returnSub
  | jumpSub => exact keeps_local local_jumpSub
  | push size => exact keeps_local (local_pushImmediate size)
  | log topics => exact keeps_log topics
  | create salted => exact keeps_create salted
  | call scheme => exact keeps_call scheme
  | selfDestruct => exact keeps_selfDestruct
  | _ => exact keeps_work (work_instruction host rfl)

lemma keeps_next : Keeps (host.Reaches x₀) (next host) := by
  refine .bind (keeps_local .frame) fun f => ?_
  split
  · exact keeps_local (.halt _ rfl)
  · rename_i i _
    exact .ite
      (.bind (keeps_work (work_charge _)) fun _ =>
        .bind (keeps_local (.update fun _ => ⟨rfl, rfl, le_rfl⟩)) fun _ => keeps_instruction i)
      (keeps_local (.halt _ rfl))

/-- Running a program on a frame makes the moves of the program. -/
lemma perform_reaches {program : Exec σ Unit} {x : Frame × σ}
    (h : Keeps (host.Reaches x) program) : host.Reaches x (program.perform x) := by
  have hx := h x .refl
  unfold perform
  split <;> rename_i hrun <;> rw [hrun] at hx
  · exact hx
  · exact hx.tail (.alone ⟨rfl, rfl, le_rfl⟩)

end Exec

namespace Host

/-- The host looks at frames before and after a step without changing anything. -/
structure Silent (host : Host σ) : Prop where
  beforeStep : ∀ f s, host.beforeStep f s = (f, s)
  afterStep : ∀ f s, host.afterStep f s = (f, s)

lemma Silent.step_eq (h : host.Silent) (f : Frame) (s : σ) :
    host.step f s = if f.isRunning then (Exec.next host).perform (f, s) else (f, s) := by
  simp only [step, h.beforeStep, h.afterStep]

lemma step_reaches (h : host.Silent) (f : Frame) (s : σ) :
    host.Reaches (f, s) (host.step f s) := by
  rw [h.step_eq]
  split
  · exact Exec.perform_reaches Exec.keeps_next
  · exact .refl

lemma steps_reaches (h : host.Silent) (fuel : Nat) (f : Frame) (s : σ) :
    host.Reaches (f, s) (host.steps fuel f s) := by
  induction fuel generalizing f s with
  | zero => exact .refl
  | succ fuel ih =>
    unfold steps
    split
    · exact (step_reaches h f s).trans (ih _ _)
    · exact .refl

/-- The run of a frame consists of moves. -/
theorem run_reaches (h : host.Silent) (f : Frame) (s : σ) :
    host.Reaches (f, s) (host.run f s) :=
  steps_reaches h _ f s

end Host

/-! ## Hosts that give no gas away -/

/-- Calls and creations give back no more gas than they got. -/
structure Host.Frugal (host : Host σ) : Prop where
  call : ∀ request s, (host.call request s).1.outcome.gas.remaining ≤ request.gasLimit
  create : ∀ request s, (host.create request s).1.outcome.gas.remaining ≤ request.gasLimit

lemma Host.Move.remaining_le (hfrugal : host.Frugal) {x y : Frame × σ} (h : host.Move x y) :
    y.1.gas.remaining ≤ x.1.gas.remaining := by
  cases h with
  | alone h => exact h.remaining
  | @create f f' s s' salt? value initCode gasLimit response _ _ hcreate _ _ hgas =>
    have hback := hfrugal.create ⟨f.address, salt?, value, initCode, gasLimit⟩ s
    rw [hcreate] at hback
    dsimp only at hback ⊢
    omega
  | @call f f' s s' scheme callee value input gasLimit out response _ _ hcall _ _ hgas =>
    have hback := hfrugal.call (Exec.callRequest f scheme callee value input gasLimit out) s
    rw [hcall, Exec.callRequest_gasLimit] at hback
    dsimp only at hback ⊢
    omega
  | _ => exact le_rfl

/-- On a frugal host no frame gains gas. -/
lemma Host.Reaches.remaining_le (hfrugal : host.Frugal) {x y : Frame × σ} (h : host.Reaches x y) :
    y.1.gas.remaining ≤ x.1.gas.remaining := by
  induction h with
  | refl => exact le_rfl
  | tail _ hmove ih => exact (hmove.remaining_le hfrugal).trans ih

end Evm
