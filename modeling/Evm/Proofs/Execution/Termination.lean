import Evm.Proofs.Execution.Congruence
import Evm.Proofs.Execution.Moves

/-!
# Termination by gas

A frame goes on only as long as it pays. `Exec.Costs price p` says that the program `p` takes at
least that much gas from the frame unless it halts it. Prices of parts add up, so every instruction
costs something together with its base price: where that is nothing, the instruction ends the frame
or is a storage write, which has a price of its own (`Exec.costs_next`). Gas comes back from calls
and creations only, and no more than was handed down if the host is `Frugal`. So a frame of a frugal
host has ended after one step more than it has gas, and more fuel changes nothing
(`Host.terminating`).
-/

namespace Evm

variable {σ ν α β : Type} {host : Host σ}

/-! ## Prices -/

namespace Gas

variable (features : Features)

lemma slotRead_pos : 0 < slotRead features := by
  unfold slotRead
  split_ifs <;> decide

lemma accountAccess_pos : 0 < accountAccess features := by
  unfold accountAccess
  split_ifs <;> decide

lemma balanceRead_pos : 0 < balanceRead features := by
  unfold balanceRead
  split_ifs <;> decide

lemma codeHashRead_pos : 0 < codeHashRead features := by
  unfold codeHashRead
  split_ifs <;> decide

lemma netReset_pos : 0 < netReset features := by
  unfold netReset
  split_ifs <;> decide

lemma warmSlotStore_pos (w : SlotWrite) : 0 < warmSlotStore features w := by
  unfold warmSlotStore
  split_ifs
  · exact slotRead_pos features
  · decide
  · exact netReset_pos features
  · exact slotRead_pos features
  · decide
  · decide

/-- A storage write is never free. -/
lemma slotStore_pos (w : SlotWrite) (cold : Bool) : 0 < slotStore features w cold := by
  have hwarm := warmSlotStore_pos features w
  unfold slotStore
  split_ifs
  · exact Nat.add_pos_left hwarm _
  · exact hwarm

/-- Only storage writes and the instructions that end the frame have no base price. -/
lemma base_pos {i : Instruction} (hends : i.isTerminating = false) (hstore : i ≠ .sstore) :
    0 < base features i := by
  cases i with
  | stop => contradiction
  | sstore => contradiction
  | ret => contradiction
  | revert => contradiction
  | invalid => contradiction
  | selfDestruct => contradiction
  | binary op => cases op <;> exact Nat.succ_pos _
  | accountField field =>
    cases field with
    | balance => exact balanceRead_pos features
    | codeSize => exact accountAccess_pos features
    | codeHash => exact codeHashRead_pos features
  | extCodeCopy => exact accountAccess_pos features
  | sload => exact slotRead_pos features
  | call scheme => exact accountAccess_pos features
  | push size =>
    change 0 < if size = 0 then 2 else 3
    split <;> decide
  | log topics => exact Nat.add_pos_left (Nat.succ_pos _) _
  | _ => exact Nat.succ_pos _

end Gas

namespace Exec

/-! ## What programs cost -/

/-- Unless it halts the frame, the program takes at least so much gas from it. -/
def Costs (price : Nat) (p : Exec σ α) : Prop :=
  ∀ f s a f' s', p.run (f, s) = (.ok a, (f', s')) → f'.gas.remaining + price ≤ f.gas.remaining

namespace Costs

variable {p p' : Exec σ α} {q : α → Exec σ β} {price price' : Nat}

lemma bind (hp : Costs price p) (hq : ∀ a, Costs price' (q a)) :
    Costs (price + price') (p >>= q) := by
  intro f s b f'' s'' h
  rw [Program.run_bind] at h
  rcases hx : p.run (f, s) with ⟨_ | a, f', s'⟩
  · rw [hx] at h
    cases h
  · rw [hx] at h
    have hle := hp f s a f' s' hx
    have hle' := hq a f' s' b f'' s'' h
    omega

lemma before (hp : Costs price p) (hq : ∀ a, Costs 0 (q a)) : Costs price (p >>= q) := bind hp hq

lemma after (hp : Costs 0 p) (hq : ∀ a, Costs price (q a)) : Costs price (p >>= q) :=
  Nat.zero_add price ▸ bind hp hq

lemma mono (hp : Costs price p) (hle : price' ≤ price) : Costs price' p :=
  fun f s a f' s' h => (Nat.add_le_add_left hle _).trans (hp f s a f' s' h)

/-- There is nothing to pay for what comes after a halt. -/
lemma halt (status : Status) : Costs price (Exec.halt status : Exec σ α) := by
  intro f s a f' s' h
  have hrun : (Exec.halt status : Exec σ α).run (f, s) = (.error status, (f, s)) := rfl
  rw [hrun] at h
  cases h

lemma ite {c : Prop} [Decidable c] (hp : Costs price p) (hp' : Costs price p') :
    Costs price (if c then p else p') := by
  split
  · exact hp
  · exact hp'

lemma ofLocal (hp : Local p) : Costs 0 p := by
  intro f s a f' s' h
  obtain ⟨f'', hrun, hf, -⟩ := hp f s
  rw [h] at hrun
  cases hrun
  exact hf.remaining

lemma charge : Costs price (Exec.charge price : Exec σ Unit) := by
  intro f s a f' s' h
  rw [charge_run] at h
  split at h
  · rename_i hle
    cases h
    exact (Nat.sub_add_cancel hle).le
  · cases h

lemma tell (op : StateM σ α) : Costs 0 (Exec.tell op) := by
  intro f s a f' s' h
  cases h
  exact le_rfl

lemma ask (op : HostM σ α) : Costs 0 (Exec.ask op) := by
  refine .before (.tell _) fun a? => ?_
  cases a? with
  | none => exact .halt _
  | some a => exact .ofLocal (.pure a)

/-- Moves on a frugal host cost nothing or more. -/
lemma of_keeps (hfrugal : host.Frugal) (hp : ∀ x, Keeps (host.Reaches x) p) : Costs 0 p := by
  intro f s a f' s' h
  have hreaches := hp (f, s) (f, s) .refl
  rw [h] at hreaches
  exact hreaches.remaining_le hfrugal

end Costs

lemma costs_finish (price : Nat) (status : Status) : Costs price (finish status : Exec σ Unit) :=
  .after (.ofLocal work_pop2.isLocal) fun _ => .after (.ofLocal (work_count _ _ rfl).isLocal) fun _ =>
    .after (.ofLocal (work_readMemory _ _).isLocal) fun _ =>
      .after (.ofLocal (.update fun _ => ⟨rfl, rfl, le_rfl⟩)) fun _ => .halt _

lemma costs_selfDestruct (host : Host σ) (price : Nat) : Costs price (selfDestruct host) := by
  refine .after (.ofLocal work_forbidStatic.isLocal) fun _ => .after (.ofLocal work_pop1.isLocal) fun _ =>
    .after (.ofLocal .frame) fun _ => .after (.ask _) fun _ => .after (.ofLocal .frame) fun _ => ?_
  have hend (cost : Nat) : Costs price (do Exec.charge cost; Exec.halt .selfDestruct : Exec σ Unit) :=
    .after (.ofLocal (work_charge cost).isLocal) fun _ => .halt _
  exact .ite (.after (.ofLocal (.update fun _ => ⟨rfl, rfl, le_rfl⟩)) fun _ => hend _) (hend _)

/-- A storage write pays for the slot. -/
lemma costs_sstore (host : Host σ) : Costs 1 (sstore host) := by
  refine .after (.ofLocal work_forbidStatic.isLocal) fun _ => .after (.ofLocal work_pop2.isLocal) fun v =>
    .after (.ofLocal .frame) fun f => ?_
  have hstore : Costs 1 (do
      let write ← Exec.ask (host.storeSlot f.address v.1 v.2)
      Exec.charge (Gas.slotStore f.features write.value write.isCold)
      Exec.update fun f =>
        { f with gas := f.gas.addRefund (Gas.slotRefund f.features write.value) }) :=
    .after (.ask _) fun _ => .before (.mono .charge (Gas.slotStore_pos _ _ _)) fun _ =>
      .ofLocal (.update fun _ => ⟨rfl, rfl, le_rfl⟩)
  exact .ite (.after (.ofLocal (.halt _ rfl)) fun _ => hstore) hstore

/-- After a terminating instruction nothing goes on, so there is no price too high for it. -/
lemma costs_of_isTerminating {i : Instruction} (h : i.isTerminating = true) (host : Host σ)
    (price : Nat) : Costs price (i.run host) := by
  cases i with
  | stop => exact .halt _
  | ret => exact costs_finish price _
  | revert => exact costs_finish price _
  | invalid => exact .halt _
  | selfDestruct => exact costs_selfDestruct host price
  | _ => contradiction

/-- On a frugal host an instruction and its base price cost something. -/
lemma costs_next (hfrugal : host.Frugal) : Costs 1 (next host) := by
  refine .after (.ofLocal .frame) fun f => ?_
  cases f.instruction? with
  | none => exact .halt _
  | some i =>
    refine .ite ?_ (.halt _)
    have hupdate : Local (update fun f => { f with pc := f.pc + 1 } : Exec σ Unit) :=
      .update fun _ => ⟨rfl, rfl, le_rfl⟩
    have hrest : Costs 0 (do update fun f => { f with pc := f.pc + 1 }; i.run host) :=
      .bind (.ofLocal hupdate) fun _ => .of_keeps hfrugal fun x => keeps_instruction i
    cases hends : i.isTerminating with
    | true =>
      exact .after (.ofLocal (work_charge _).isLocal) fun _ => .after (.ofLocal hupdate) fun _ =>
        costs_of_isTerminating hends host 1
    | false =>
      by_cases hstore : i = .sstore
      · subst hstore
        exact .after (.ofLocal (work_charge _).isLocal) fun _ => .after (.ofLocal hupdate) fun _ =>
          costs_sstore host
      · exact .before (.mono .charge (Gas.base_pos _ hends hstore)) fun _ => hrest

/-! ## Halts -/

namespace Halts

variable {p p' : Exec σ α} {q : α → Exec σ β}

lemma bind (hp : Halts p) (hq : ∀ a, Halts (q a)) : Halts (p >>= q) := by
  intro x
  have hx := hp x
  rw [Program.run_bind]
  rcases hr : p.run x with ⟨e | a, y⟩
  · rw [hr] at hx
    exact fun he => hx (congrArg _ (Except.error.inj he))
  · exact hq a y

lemma ite {c : Prop} [Decidable c] (hp : Halts p) (hp' : Halts p') :
    Halts (if c then p else p') := by
  split
  · exact hp
  · exact hp'

lemma tell (op : StateM σ α) : Halts (Exec.tell op) := fun _ => nofun

lemma ask (op : HostM σ α) : Halts (Exec.ask op) := by
  refine .bind (.tell _) fun a? => ?_
  cases a? with
  | none => exact (Local.halt _ rfl).halts
  | some a => exact (Local.pure a).halts

end Halts

lemma halts_accountField (host : Host σ) (field : AccountField) : Halts (accountField host field) :=
  .bind work_operand.halts fun _ => .bind (.ask _) fun _ => .bind Local.frame.halts fun _ =>
    .bind (work_charge _).halts fun _ => (work_setTop _).halts

lemma halts_selfBalance (host : Host σ) : Halts (selfBalance host) :=
  .bind Local.frame.halts fun _ => .bind (.ask _) fun _ => (work_push _).halts

lemma halts_extCodeCopy (host : Host σ) : Halts (extCodeCopy host) :=
  .bind work_pop4.halts fun _ => .bind (.ask _) fun _ => .bind (work_count _ _ rfl).halts fun _ =>
    .bind Local.frame.halts fun _ => .bind (work_chargePrice _).halts fun _ =>
      (work_copyToMemory _ _ _ _).halts

lemma halts_selfDestruct (host : Host σ) : Halts (selfDestruct host) := by
  refine .bind work_forbidStatic.halts fun _ => .bind work_pop1.halts fun _ =>
    .bind Local.frame.halts fun _ => .bind (.ask _) fun _ => .bind Local.frame.halts fun _ => ?_
  have hend (cost : Nat) : Local (do charge cost; halt .selfDestruct : Exec σ Unit) :=
    .bind (work_charge cost).isLocal fun _ => .halt _ rfl
  exact .ite (.bind (Local.update fun _ => ⟨rfl, rfl, le_rfl⟩).halts fun _ => (hend _).halts)
    (hend _).halts

lemma halts_sload (host : Host σ) : Halts (sload host) :=
  .bind work_operand.halts fun _ => .bind Local.frame.halts fun _ => .bind (.ask _) fun _ =>
    .bind Local.frame.halts fun _ => .bind (work_charge _).halts fun _ => (work_setTop _).halts

lemma halts_sstore (host : Host σ) : Halts (sstore host) := by
  refine .bind work_forbidStatic.halts fun _ => .bind work_pop2.halts fun v =>
    .bind Local.frame.halts fun f => ?_
  have hstore : Halts (do
      let write ← ask (host.storeSlot f.address v.1 v.2)
      charge (Gas.slotStore f.features write.value write.isCold)
      update fun f => { f with gas := f.gas.addRefund (Gas.slotRefund f.features write.value) }) :=
    .bind (.ask _) fun _ => .bind (work_charge _).halts fun _ =>
      (Local.update fun _ => ⟨rfl, rfl, le_rfl⟩).halts
  exact .ite (.bind (Local.halt _ rfl).halts fun _ => hstore) hstore

lemma halts_tload (host : Host σ) : Halts (tload host) :=
  .bind work_operand.halts fun _ => .bind Local.frame.halts fun _ => .bind (.tell _) fun _ =>
    (work_setTop _).halts

lemma halts_tstore (host : Host σ) : Halts (tstore host) :=
  .bind work_forbidStatic.halts fun _ => .bind work_pop2.halts fun _ =>
    .bind Local.frame.halts fun _ => .tell _

lemma halts_log (host : Host σ) (topics : Nat) : Halts (log host topics) :=
  .bind work_forbidStatic.halts fun _ => .bind work_pop2.halts fun _ =>
    .bind (work_count _ _ rfl).halts fun _ => .bind (work_chargePrice _).halts fun _ =>
      .bind (work_readMemory _ _).halts fun _ => .bind (work_pop _).halts fun _ =>
        .bind Local.frame.halts fun _ => .tell _

lemma halts_create (host : Host σ) (salted : Bool) : Halts (create host salted) := by
  refine .bind work_forbidStatic.halts fun _ => .bind work_pop3.halts fun v =>
    .bind (work_count _ _ rfl).halts fun len => .bind (work_initCode host _ _).halts fun initCode => ?_
  have hgrant : Local (grantToCreation : Exec σ Nat) :=
    .bind .frame fun _ => .bind (work_active _).isLocal fun _ => .bind (work_charge _).isLocal fun _ => .pure _
  have hrun (salt? : Option Word) : Halts (do
      let gasLimit ← grantToCreation
      let caller := (← frame).address
      settleCreate (← tell (host.create { caller, salt?, value := v.1, initCode, gasLimit }))) :=
    .bind hgrant.halts fun _ => .bind Local.frame.halts fun _ => .bind (.tell _) fun _ =>
      (yields_settleCreate _).halts
  exact .ite (.bind ((work_salt _).map _).halts fun _ => hrun _)
    (.bind (Local.pure _).halts fun _ => hrun _)

lemma halts_callGrant (host : Host σ) (scheme : CallScheme) (callee : Address) (movesValue : Bool)
    (requested : Nat) : Halts (callGrant host scheme callee movesValue requested) :=
  .bind (.ask _) fun _ => .bind Local.frame.halts fun _ => .bind (work_charge _).halts fun _ =>
    .ite (.bind Local.frame.halts fun _ => (Local.pure _).halts) (Local.pure _).halts

lemma halts_call (host : Host σ) (scheme : CallScheme) : Halts (call host scheme) := by
  refine .bind (work_callOperands scheme).halts fun v => ?_
  have hrun : Halts (do
      let windows ← callWindows
      let grant ← callGrant host scheme v.2.1 (v.2.2 != 0) v.1.toCount
      charge grant
      let gasLimit := if v.2.2 != 0 then Count.satAdd grant Gas.callStipend else grant
      let request := callRequest (← frame) scheme v.2.1 v.2.2 windows.1 gasLimit windows.2
      settleCall (← tell (host.call request))) :=
    .bind work_callWindows.halts fun _ => .bind (halts_callGrant _ _ _ _ _) fun _ =>
      .bind (work_charge _).halts fun _ => .bind Local.frame.halts fun _ => .bind (.tell _) fun _ =>
        (yields_settleCall _).halts
  refine .ite (.bind Local.frame.halts fun _ => ?_) hrun
  exact .ite (.bind (Local.halt _ rfl).halts fun _ => hrun) hrun

/-- No instruction halts a frame that goes on. -/
lemma halts_instruction (host : Host σ) (i : Instruction) : Halts (i.run host) := by
  cases i with
  | accountField field => exact halts_accountField host field
  | selfBalance => exact halts_selfBalance host
  | extCodeCopy => exact halts_extCodeCopy host
  | sload => exact halts_sload host
  | sstore => exact halts_sstore host
  | tload => exact halts_tload host
  | tstore => exact halts_tstore host
  | jump => exact local_jump.halts
  | jumpI => exact local_jumpI.halts
  | returnSub => exact local_returnSub.halts
  | jumpSub => exact local_jumpSub.halts
  | push size => exact (local_pushImmediate size).halts
  | log topics => exact halts_log host topics
  | create salted => exact halts_create host salted
  | call scheme => exact halts_call host scheme
  | selfDestruct => exact halts_selfDestruct host
  | _ => exact (work_instruction host rfl).halts

lemma halts_next (host : Host σ) : Halts (next host) := by
  refine .bind Local.frame.halts fun f => ?_
  cases f.instruction? with
  | none => exact (Local.halt _ rfl).halts
  | some i =>
    have hupdate : Local (update fun f => { f with pc := f.pc + 1 } : Exec σ Unit) :=
      .update fun _ => ⟨rfl, rfl, le_rfl⟩
    exact .ite (.bind (work_charge _).halts fun _ => .bind hupdate.halts fun _ =>
      halts_instruction host i) (Local.halt _ rfl).halts

/-- A program that costs something has taken gas from every frame that it leaves running. -/
lemma perform_remaining_lt {p : Exec σ Unit} (hcosts : Costs 1 p) (hhalts : Halts p)
    {x : Frame × σ} (h : (p.perform x).1.isRunning = true) :
    (p.perform x).1.gas.remaining < x.1.gas.remaining := by
  obtain ⟨f, s⟩ := x
  have hx := hhalts (f, s)
  unfold perform at h ⊢
  rcases hr : p.run (f, s) with ⟨status | a, f', s'⟩ <;> rw [hr] at h hx
  · have hrunning : status = .running := beq_iff_eq.1 h
    exact absurd (congrArg _ hrunning) hx
  · exact hcosts f s a f' s' hr

end Exec

/-! ## Runs -/

namespace Host

/-- A step that leaves the frame running takes gas from it. -/
lemma step_remaining_lt (hsilent : host.Silent) (hfrugal : host.Frugal) {f : Frame} {s : σ}
    (h : (host.step f s).1.isRunning = true) :
    (host.step f s).1.gas.remaining < f.gas.remaining := by
  simp only [step, hsilent.beforeStep, hsilent.afterStep] at h ⊢
  split at h
  · rename_i hf
    rw [if_pos hf]
    exact Exec.perform_remaining_lt (Exec.costs_next hfrugal) (Exec.halts_next host) h
  · contradiction

lemma steps_of_not_running {f : Frame} (h : f.isRunning = false) (fuel : Nat) (s : σ) :
    host.steps fuel f s = (f, s) := by
  cases fuel with
  | zero => rfl
  | succ fuel =>
    unfold steps
    rw [h]
    rfl

/-- With more fuel than gas the frame ends, and it does not matter how much fuel that is. -/
lemma steps_of_lt (hsilent : host.Silent) (hfrugal : host.Frugal) {fuel fuel' : Nat} {f : Frame}
    (hlt : f.gas.remaining < fuel) (hlt' : f.gas.remaining < fuel') (s : σ) :
    (host.steps fuel f s).1.isRunning = false ∧ host.steps fuel f s = host.steps fuel' f s := by
  induction fuel generalizing fuel' f s with
  | zero => exact absurd hlt (Nat.not_lt_zero _)
  | succ fuel ih =>
    obtain ⟨fuel', rfl⟩ : ∃ n, fuel' = n + 1 := Nat.exists_eq_add_one.2 (Nat.zero_lt_of_lt hlt')
    unfold steps
    cases hf : f.isRunning with
    | false => exact ⟨hf, rfl⟩
    | true =>
      rcases hx : host.step f s with ⟨f₁, s₁⟩
      simp only [if_true]
      cases hf₁ : f₁.isRunning with
      | false =>
        rw [steps_of_not_running hf₁, steps_of_not_running hf₁]
        exact ⟨hf₁, rfl⟩
      | true =>
        have hless : f₁.gas.remaining < f.gas.remaining := by
          have hstep := step_remaining_lt hsilent hfrugal (f := f) (s := s)
          rw [hx] at hstep
          exact hstep hf₁
        exact ih (by omega) (by omega) s₁

/-! ## The gas that is handed down -/

/-- An operation next to notes that it leaves alone. -/
def beside (op : StateM σ α) : StateM (σ × ν) α := fun (s, notes) =>
  let (a, s) := op s
  (a, (s, notes))

/-- The host, which also notes the gas limit of every call and creation. -/
def noting (host : Host σ) : Host (σ × List Nat) where
  env x := host.env x.1
  beforeStep f := beside (host.beforeStep f)
  afterStep f := beside (host.afterStep f)
  presence a := OptionT.mk (beside (host.presence a).run)
  balance a := OptionT.mk (beside (host.balance a).run)
  code a := OptionT.mk (beside (host.code a).run)
  codeHash a := OptionT.mk (beside (host.codeHash a).run)
  loadSlot a index := OptionT.mk (beside (host.loadSlot a index).run)
  storeSlot a index value := OptionT.mk (beside (host.storeSlot a index value).run)
  loadTransient a index := beside (host.loadTransient a index)
  storeTransient a index value := beside (host.storeTransient a index value)
  log entry := beside (host.log entry)
  selfDestruct a beneficiary := OptionT.mk (beside (host.selfDestruct a beneficiary).run)
  call request := do
    modify fun (s, limits) => (s, request.gasLimit :: limits)
    beside (host.call request)
  create request := do
    modify fun (s, limits) => (s, request.gasLimit :: limits)
    beside (host.create request)

lemma alike_beside (op : StateM σ α) :
    Evm.Alike (fun (x : σ × ν) s => x.1 = s) (beside op) op := by
  rintro ⟨s, notes⟩ _ rfl
  exact ⟨rfl, rfl⟩

/-- Frames cannot tell that notes are taken. -/
lemma noting_alike (host : Host σ) : host.noting.Alike (fun x s => x.1 = s) host where
  env h := congrArg host.env h
  beforeStep _ := alike_beside _
  afterStep _ := alike_beside _
  presence _ := alike_beside _
  balance _ := alike_beside _
  code _ := alike_beside _
  codeHash _ := alike_beside _
  loadSlot _ _ := alike_beside _
  storeSlot _ _ _ := alike_beside _
  loadTransient _ _ := alike_beside _
  storeTransient _ _ _ := alike_beside _
  log _ := alike_beside _
  selfDestruct _ _ := alike_beside _
  call request := fun x s h => alike_beside (host.call request) (x.1, request.gasLimit :: x.2) s h
  create request := fun x s h =>
    alike_beside (host.create request) (x.1, request.gasLimit :: x.2) s h

lemma silent_noting (hsilent : host.Silent) : host.noting.Silent where
  beforeStep f x := by
    change ((host.beforeStep f x.1).1, ((host.beforeStep f x.1).2, x.2)) = (f, x)
    rw [hsilent.beforeStep]
  afterStep f x := by
    change ((host.afterStep f x.1).1, ((host.afterStep f x.1).2, x.2)) = (f, x)
    rw [hsilent.afterStep]

lemma frugal_noting (hfrugal : host.Frugal) : host.noting.Frugal where
  call request x := hfrugal.call request x.1
  create request x := hfrugal.create request x.1

/-- The frame has no more gas than that, and no call or creation got more. -/
def LimitsWithin (bound : Nat) (x : Frame × σ × List Nat) : Prop :=
  x.1.gas.remaining ≤ bound ∧ ∀ limit ∈ x.2.2, limit ≤ bound

lemma Move.limitsWithin (hfrugal : host.Frugal) {x y : Frame × σ × List Nat}
    (h : host.noting.Move x y) {bound : Nat} (hx : LimitsWithin bound x) : LimitsWithin bound y := by
  refine ⟨(h.remaining_le (frugal_noting hfrugal)).trans hx.1, ?_⟩
  obtain ⟨hgas, hlimits⟩ := hx
  cases h with
  | @create f f' x x' salt? value initCode gasLimit response _ hlimit hcreate =>
    have hx' : x'.2 = gasLimit :: x.2 := (congrArg (·.2.2) hcreate).symm
    rintro limit hmem
    rw [hx'] at hmem
    rcases List.mem_cons.1 hmem with rfl | hmem
    · exact hlimit.trans hgas
    · exact hlimits limit hmem
  | @call f f' x x' scheme callee value input gasLimit out response _ hlimit hcall =>
    have hx' : x'.2 = gasLimit :: x.2 := by
      have h := (congrArg (·.2.2) hcall).symm
      rwa [← Exec.callRequest_gasLimit f scheme callee value input gasLimit out]
    rintro limit hmem
    rw [hx'] at hmem
    rcases List.mem_cons.1 hmem with rfl | hmem
    · exact hlimit.trans hgas
    · exact hlimits limit hmem
  | _ => exact hlimits

lemma Reaches.limitsWithin (hfrugal : host.Frugal) {x y : Frame × σ × List Nat}
    (h : host.noting.Reaches x y) {bound : Nat} (hx : LimitsWithin bound x) :
    LimitsWithin bound y := by
  induction h with
  | refl => exact hx
  | tail _ hmove ih => exact hmove.limitsWithin hfrugal ih

end Host

namespace Exec

variable {limits : List Nat}

/-- A program that asks for no call and no creation leaves the notes alone. -/
abbrev Unnoted (limits : List Nat) (p : Exec (σ × List Nat) α) : Prop :=
  Keeps (fun x => x.2.2 = limits) p

lemma unnoted_local {p : Exec (σ × List Nat) α} (hp : Local p) : Unnoted limits p := by
  rintro ⟨f, s⟩ h
  obtain ⟨f', hrun, -⟩ := hp f s
  rw [hrun]
  exact h

lemma unnoted_ask (op : HostM σ α) : Unnoted limits (ask (OptionT.mk (Host.beside op.run))) := by
  have htell : Unnoted limits (tell (Host.beside op.run)) := fun _ h => h
  refine .bind htell fun a? => ?_
  cases a? with
  | none => exact .throw _
  | some a => exact .pure a

lemma unnoted_sstore (host : Host σ) : Unnoted limits (sstore host.noting) := by
  refine .bind (unnoted_local work_forbidStatic.isLocal) fun _ => .bind (unnoted_local work_pop2.isLocal) fun v =>
    .bind (unnoted_local .frame) fun f => ?_
  have hstore : Unnoted limits (do
      let write ← ask (host.noting.storeSlot f.address v.1 v.2)
      charge (Gas.slotStore f.features write.value write.isCold)
      update fun f => { f with gas := f.gas.addRefund (Gas.slotRefund f.features write.value) }) :=
    .bind (unnoted_ask _) fun _ => .bind (unnoted_local (work_charge _).isLocal) fun _ =>
      unnoted_local (.update fun _ => ⟨rfl, rfl, le_rfl⟩)
  exact .ite (.bind (unnoted_local (.halt _ rfl)) fun _ => hstore) hstore

lemma unnoted_selfDestruct (host : Host σ) : Unnoted limits (selfDestruct host.noting) := by
  refine .bind (unnoted_local work_forbidStatic.isLocal) fun _ => .bind (unnoted_local work_pop1.isLocal) fun _ =>
    .bind (unnoted_local .frame) fun _ => .bind (unnoted_ask _) fun _ =>
      .bind (unnoted_local .frame) fun _ => ?_
  have hend (cost : Nat) :
      Unnoted limits (do charge cost; halt .selfDestruct : Exec (σ × List Nat) Unit) :=
    .bind (unnoted_local (work_charge cost).isLocal) fun _ => unnoted_local (.halt _ rfl)
  exact .ite (.bind (unnoted_local (.update fun _ => ⟨rfl, rfl, le_rfl⟩)) fun _ => hend _) (hend _)

lemma unnoted_of_isTerminating {i : Instruction} (h : i.isTerminating = true) (host : Host σ) :
    Unnoted limits (i.run host.noting) := by
  cases i with
  | stop => exact unnoted_local (.halt _ rfl)
  | ret => exact unnoted_local (work_finish _ rfl).isLocal
  | revert => exact unnoted_local (work_finish _ rfl).isLocal
  | invalid => exact unnoted_local (.halt _ rfl)
  | selfDestruct => exact unnoted_selfDestruct host
  | _ => contradiction

/-- An instruction hands down less gas than the frame had before it. -/
lemma noted_next (hfrugal : host.Frugal) (f : Frame) (s : σ) :
    ∀ limit ∈ ((next host.noting).run (f, (s, []))).2.2.2, limit < f.gas.remaining := by
  have hnone {x : Frame × σ × List Nat} (h : x.2.2 = []) :
      ∀ limit ∈ x.2.2, limit < f.gas.remaining := by
    rw [h]
    exact fun _ hmem => absurd hmem List.not_mem_nil
  unfold next
  rw [frame_bind_run]
  cases f.instruction? with
  | none => exact hnone rfl
  | some i =>
    dsimp only
    split
    · have hcharge := charge_run (Gas.base f.features i) f (s, ([] : List Nat))
      split at hcharge
      · rename_i hle
        rw [Program.run_bind_ok hcharge]
        set f₁ : Frame := { f with
          gas := { f.gas with remaining := f.gas.remaining - Gas.base f.features i } }
        change ∀ limit ∈ ((i.run host.noting).run ({ f₁ with pc := f₁.pc + 1 }, (s, []))).2.2.2,
          limit < f.gas.remaining
        by_cases hfree : i.isTerminating = true ∨ i = .sstore
        · have hunnoted : Unnoted [] (i.run host.noting) := by
            rcases hfree with hends | rfl
            · exact unnoted_of_isTerminating hends host
            · exact unnoted_sstore host
          exact hnone (hunnoted _ rfl)
        · have hpos : 0 < Gas.base f.features i :=
            Gas.base_pos _ (Bool.eq_false_iff.2 fun h => hfree (.inl h)) fun h => hfree (.inr h)
          have hwithin := (keeps_instruction i _ .refl).limitsWithin hfrugal
            (x := ({ f₁ with pc := f₁.pc + 1 }, (s, [])))
            ⟨le_rfl, fun _ hmem => absurd hmem List.not_mem_nil⟩
          intro limit hmem
          have hlimit := hwithin.2 limit hmem
          change limit ≤ f.gas.remaining - Gas.base f.features i at hlimit
          omega
      · rw [Program.run_bind_error hcharge]
        exact hnone rfl
    · exact hnone rfl

end Exec

namespace Host

lemma noted_step (hsilent : host.Silent) (hfrugal : host.Frugal) (f : Frame) (s : σ) :
    ∀ limit ∈ (host.noting.step f (s, [])).2.2, limit < f.gas.remaining := by
  have hnext := Exec.noted_next hfrugal f s
  simp only [step, (silent_noting hsilent).beforeStep, (silent_noting hsilent).afterStep]
  split
  · unfold Exec.perform
    split <;> rename_i hrun <;> rw [hrun] at hnext <;> exact hnext
  · exact fun _ hmem => absurd hmem List.not_mem_nil

/-- What ends the frames of a host. -/
structure Terminating (host : Host σ) : Prop where
  /-- A step that leaves the frame running takes gas from it. -/
  step_lt : ∀ f s, (host.step f s).1.isRunning = true →
    (host.step f s).1.gas.remaining < f.gas.remaining
  /-- Taking notes changes nothing. -/
  step_noting : ∀ f s limits,
    ((host.noting.step f (s, limits)).1, (host.noting.step f (s, limits)).2.1) = host.step f s
  /-- Calls and creations get less gas than the frame had before the instruction. -/
  noted_lt : ∀ f s, ∀ limit ∈ (host.noting.step f (s, [])).2.2, limit < f.gas.remaining
  /-- After one step more than it has gas the frame has ended. -/
  run_ends : ∀ f s, (host.run f s).1.isRunning = false
  /-- More steps change nothing. -/
  steps_eq_run : ∀ fuel f s, f.gas.remaining < fuel → host.steps fuel f s = host.run f s

/-- The frames of a frugal host end. -/
theorem terminating (hsilent : host.Silent) (hfrugal : host.Frugal) : host.Terminating where
  step_lt _ _ h := step_remaining_lt hsilent hfrugal h
  step_noting f s limits := by
    obtain ⟨hframe, hstate⟩ := host.noting_alike.step f (s, limits) s rfl
    exact Prod.ext hframe hstate
  noted_lt := noted_step hsilent hfrugal
  run_ends f s := (steps_of_lt hsilent hfrugal (Nat.lt_succ_self _) (Nat.lt_succ_self _) s).1
  steps_eq_run fuel f s hlt := (steps_of_lt hsilent hfrugal hlt (Nat.lt_succ_self _) s).2

end Host

end Evm
