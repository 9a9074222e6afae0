import Evm.Proofs.Execution.Congruence
import Evm.Proofs.Machine.Isolation
import Evm.Proofs.Machine.Value

/-!
# Value is conserved

Messages conserve the sum of all balances: none of the sums and differences that they compute leaves
the range of a word, and nothing is lost but the balance of an account that is destroyed in favour of
itself. That account is among the destroyed ones then. The machine is compared under the ledger that
it uses and under any other exact one, operation by operation, then over the run of a frame, and by
induction on the levels of messages.
-/

namespace Evm.Machine

open Ledger (Uniform UniformOp saturating)

variable {m m' : Machine Unit} {supply : Nat}

/-- The balances add up to the supply, or to less if an account was destroyed. -/
def Conserves (supply : Nat) (m : Machine Unit) : Prop :=
  m.context.world.Conserves supply (m.substate.destroyed = ∅)

lemma stable_sameRecords (m : Machine Unit) :
    Stable fun m' : Machine Unit => m.context.world.SameRecords m'.context.world where
  refreshed hm h := hm.trans h.sameRecords
  journal hm _ := hm
  report _ hm := hm
  parked hm := hm

lemma stable_conserves (supply : Nat) : Stable (Conserves supply) where
  refreshed hm h := World.Conserves.sameRecords hm h.sameRecords
  journal hm _ := hm
  report _ hm := hm
  parked hm := hm

/-! ## The machine as a host -/

/-- A destruction does the same under all exact ledgers, and conserves the supply. -/
lemma uniform_selfDestruct (hsupply : supply < 2 ^ 256) (a b : Address) (hm : m.Conserves supply) :
    UniformOp (Conserves supply) (fun _ _ => True) (fun _ => selfDestruct .silent a b) m := by
  have hI := stable_conserves supply
  unfold selfDestruct
  refine .bind (.alone .get hm fun _ _ h => h) fun m₀ m hm _ => ?_
  refine .bind (.alone (keeps_access hI b) hm fun _ _ _ => trivial) fun isCold m hm _ => ?_
  refine .bind (P := fun target? m => m.context.world.readAccount b = .ok target?)
    (.alone (keeps_readAccount hI b) hm fun target? m' h => ?_) fun target? m hm htarget => ?_
  · obtain ⟨world, hrun, rfl⟩ := attempt_run_some h
    obtain ⟨w, hrun', href⟩ := World.account_run m.context.world b
    obtain ⟨hread, rfl⟩ := Prod.mk.inj (hrun'.symm.trans hrun)
    exact (href.sameRecords.readAccount hm.recalls b).trans hread
  refine .bind (P := fun record m => m.context.world.readAccount b = .ok target? ∧
    ∃ record?, m.context.world.readAccount a = .ok record? ∧ record = record?.getD {})
    (.alone (keeps_attempt hI (keeps_onRead hI (World.reading_accountOrEmpty a))) hm
      fun record m' h => ?_) fun record m hm hrecord => ?_
  · obtain ⟨world, hrun, rfl⟩ := attempt_run_some h
    obtain ⟨href, record?, hread, rfl⟩ := World.accountOrEmpty_ok hrun
    exact ⟨(href.sameRecords.readAccount hm.recalls b).trans htarget, record?,
      (href.sameRecords.readAccount hm.recalls a).trans hread, rfl⟩
  obtain ⟨htarget, record?, hrecord, rfl⟩ := hrecord
  refine .bind (.alone .get hm fun _ _ h => h) fun m₁ m' _ h => ?_
  obtain ⟨⟨⟩, rfl⟩ := Prod.mk.inj h
  -- The balance may be lost before the account is among the destroyed ones.
  obtain ⟨w, hsweep, hw⟩ := World.sweep_run hm hsupply hrecord htarget
    (!m₀.features.has .eip6780 || m.substate.created.contains a)
  have hdestroyed (deletes : Bool) : (if deletes then { m.substate with
      destroyed := m.substate.destroyed.insert a } else m.substate).destroyed = ∅ →
        m.substate.destroyed = ∅ ∧ deletes = false := by
    cases deletes with
    | false => exact fun h => ⟨h, rfl⟩
    | true => exact fun h => absurd h Std.ExtTreeSet.insert_ne_empty
  exact ⟨_, _, fun ledger h =>
    (HostM.run_bind_some (attempt_run_ok (hsweep ledger h))).trans rfl, hw.mono (hdestroyed _),
    fun _ _ => trivial⟩

/-! ## Messages below a frame -/

/-- Nothing was destroyed in the end if nothing was before and the frame below added nothing. -/
lemma destroyed_merge_eq_empty {s : Substate} {result : FrameResult}
    (h : (s.merge result).destroyed = ∅) :
    s.destroyed = ∅ ∧ (result.isOk = true → result.destroyed = ∅) := by
  unfold Substate.merge at h
  split at h
  · have hmem := Std.ExtTreeSet.eq_empty_iff_forall_not_mem.1 h
    simp only [Std.ExtTreeSet.mem_union_iff, not_or] at hmem
    exact ⟨Std.ExtTreeSet.eq_empty_iff_forall_not_mem.2 fun a => (hmem a).1, fun _ =>
      Std.ExtTreeSet.eq_empty_iff_forall_not_mem.2 fun a => (hmem a).2⟩
  · rename_i hfailed
    exact ⟨h, fun hok => absurd hok hfailed⟩

/-- Running messages does the same under all exact ledgers and conserves the supply, where the
accounts destroyed before and in the message count. A failure of the store loses nothing. -/
structure Conservative (supply : Nat)
    (run : Ledger → Message → MachineM StateError Unit FrameResult) : Prop where
  continues : RunContinues (run saturating)
  uniform : ∀ (message : Message) (m : Machine Unit),
    m.context.world.Conserves supply (message.destroyed = ∅) →
      Uniform (fun result m' => m'.substate = m.substate ∧ m'.context.world.Conserves supply
        (message.destroyed = ∅ ∧ (result.isOk = true → result.destroyed = ∅))) (run · message) m
  error : ∀ (message : Message) (m m' : Machine Unit) (e : StateError) (exactly : Prop),
    (run saturating message).run m = (.error e, m') →
      m.context.world.Conserves supply exactly →
        m'.substate = m.substate ∧ m'.context.world.Conserves supply exactly

variable {run : Ledger → Message → MachineM StateError Unit FrameResult}

/-- A message of the running frame does the same under all exact ledgers, and conserves the supply. -/
lemma Conservative.runChild_conserves (hrun : Conservative supply run) (hm : m.Conserves supply)
    (message : Message) (hdestroyed : message.destroyed = m.substate.destroyed) :
    (∀ ledger : Ledger, ledger.Exact →
      runChild (run ledger) message m = runChild (run saturating) message m) ∧
      (runChild (run saturating) message m).2.Conserves supply := by
  obtain ⟨r, m', hr, hok⟩ := hrun.uniform message m (hdestroyed ▸ hm)
  have hr₀ := hr saturating Ledger.exact_saturating
  have heq (ledger : Ledger) (h : ledger.Exact) : runChild (run ledger) message m =
      runChild (run saturating) message m := by
    unfold runChild
    rw [hr ledger h, hr₀]
  refine ⟨heq, ?_⟩
  unfold runChild
  rw [hr₀]
  cases r with
  | error e =>
    obtain ⟨hsubstate, hconserves⟩ := hrun.error message m m' e _ hr₀ hm
    exact hconserves.mono fun h => hsubstate ▸ h
  | ok result =>
    obtain ⟨hsubstate, hconserves⟩ := hok result rfl
    refine hconserves.mono fun h => ?_
    obtain ⟨hbefore, hadded⟩ := destroyed_merge_eq_empty h
    rw [hsubstate, ← hdestroyed] at hbefore
    exact ⟨hbefore, hadded⟩

lemma Conservative.alike_call (hrun : Conservative supply run) {ledger : Ledger} (h : ledger.Exact)
    (request : CallRequest) :
    Evm.Alike (Diagonal (Conserves supply)) (call .silent (run saturating) request)
      (call .silent (run ledger) request) := by
  refine .diagonal fun m hm => ?_
  obtain ⟨heq, hm'⟩ := hrun.runChild_conserves hm (m.handDown (.ofCall request (m.depth + 1))) rfl
  rw [call_silent, call_silent, heq ledger h]
  exact ⟨rfl, hm'⟩

lemma Conservative.alike_create (hrun : Conservative supply run) {ledger : Ledger} (h : ledger.Exact)
    (request : CreateRequest) :
    Evm.Alike (Diagonal (Conserves supply)) (create .silent (run saturating) request)
      (create .silent (run ledger) request) := by
  refine .diagonal fun m hm => ?_
  obtain ⟨heq, hm'⟩ := hrun.runChild_conserves hm (m.handDown (.ofCreate request (m.depth + 1))) rfl
  rw [create_silent, create_silent, heq ledger h]
  exact ⟨rfl, hm'⟩

/-- The operations of the machine do the same under all exact ledgers, and conserve the supply. -/
lemma Conservative.alike_host (hrun : Conservative supply run) (hsupply : supply < 2 ^ 256)
    {ledger : Ledger} (h : ledger.Exact) :
    (@host Unit saturating .silent (run saturating)).Alike (Diagonal (Conserves supply))
      (@host Unit ledger .silent (run ledger)) := by
  have hI := stable_conserves supply
  have hsame {α : Type} {op : HostM (Machine Unit) α} (hop : HostM.Keeps (Conserves supply) op) :
      HostM.Alike (Diagonal (Conserves supply)) op op := .diagonal fun m hm => ⟨rfl, hop m hm⟩
  have hkeeps {α : Type} {op : StateM (Machine Unit) α}
      (hop : ∀ m : Machine Unit, m.Conserves supply → (op m).2.Conserves supply) :
      Evm.Alike (Diagonal (Conserves supply)) op op := .diagonal fun m hm => ⟨rfl, hop m hm⟩
  have hset (a : Address) (index value : Word) : Keeps (Conserves supply)
      (onWorld (World.setSlot a index value) : MachineM StateError Unit Unit) :=
    fun m hm => World.Conserves.sameRecords hm (World.sameRecords_setSlot _ a index value)
  exact {
    env := fun hm => congrArg (·.context.env) hm.1
    beforeStep := fun _ => hkeeps fun _ hm => hm
    afterStep := fun _ => hkeeps fun _ hm => hm
    presence := fun a => hsame (keeps_presence hI a)
    balance := fun a => hsame (keeps_balance hI a)
    code := fun a => hsame (keeps_code hI a)
    codeHash := fun a => hsame (keeps_codeHash hI a)
    loadSlot := fun a index => hsame (keeps_loadSlot hI a index)
    storeSlot := fun a index value => hsame (keeps_storeSlot hI a index value (hset a index value))
    loadTransient := fun _ _ => hkeeps fun _ hm => hm
    storeTransient := fun _ _ _ => hkeeps fun _ hm => hm
    log := fun _ => hkeeps fun _ hm => hm
    selfDestruct := fun a b => UniformOp.alike (fun _ hm => uniform_selfDestruct hsupply a b hm) h
    call := hrun.alike_call h
    create := hrun.alike_create h }

/-! ## Frames -/

/-- A frame runs the same under all exact ledgers, and conserves the supply. -/
lemma Conservative.uniform_runFrame (hrun : Conservative supply run) (hsupply : supply < 2 ^ 256)
    (f : Frame) (hm : m.Conserves supply) :
    Uniform (fun _ m' => m'.Conserves supply)
      (fun ledger => runFrame .silent (run ledger) f) m := by
  have hsame (ledger : Ledger) (h : ledger.Exact) :=
    ((hrun.alike_host hsupply h).run f).of_diagonal hm
  have hm' := (hsame saturating Ledger.exact_saturating).2
  refine .of_eq (fun ledger h => ?_) fun o m' ho => ?_
  · rw [runFrame_run, ← (hsame ledger h).1]
    exact (@runFrame_run (run saturating) saturating f m).symm
  · rw [runFrame_run] at ho
    dsimp only at ho
    split at ho <;> cases ho
    exact hm'

/-- A checkpoint changes nothing about that: what is kept conserves the supply. -/
lemma uniform_guarded {body : Ledger → MachineM StateError Unit FrameResult}
    (hkeeps : ∀ m₀ : Machine Unit, Keeps m₀.Continues (body saturating)) (hm : m.Conserves supply)
    (hbody : Uniform (fun result m' => result.isOk = true → m'.Conserves supply) body m.opened) :
    Uniform (fun result m' => result.isOk = true → m'.Conserves supply)
      (fun ledger => guarded .cache FrameResult.isOk (body ledger)) m := by
  obtain ⟨r, m', hr, hok⟩ := hbody
  have hcontinues := hkeeps m.opened m.opened (.refl _)
  have hr₀ := hr saturating Ledger.exact_saturating
  rw [hr₀] at hcontinues
  obtain ⟨m'', hrun'', hcontinues'', hsubstate, -, hagrees⟩ :=
    guarded_run .cache FrameResult.isOk hr₀ hcontinues
  refine .of_eq (fun ledger h => ?_) fun result m₁ hresult hkept => ?_
  · have hsame : (body ledger).run m.opened = (body saturating).run m.opened :=
      (hr ledger h).trans hr₀.symm
    change (body ledger).run { m with context := m.context.checkpoint } =
      (body saturating).run { m with context := m.context.checkpoint } at hsame
    change guarded _ _ _ m = guarded _ _ _ m
    unfold guarded
    rw [hsame]
  · obtain ⟨rfl, rfl⟩ := Prod.mk.inj (hrun''.symm.trans hresult)
    have hisKept : isKept FrameResult.isOk (.ok result : Except StateError FrameResult) = true :=
      hkept
    rw [hisKept] at hagrees
    have hm' := hok result rfl hkept
    unfold Conserves at hm' ⊢
    rw [hsubstate]
    exact hm'.closed hcontinues.context.world hcontinues''.context.world hm.recalls hagrees.world.accounts

lemma uniform_onWorld {α : Type} {Q : α → World → Prop} {op : Ledger → WorldM α}
    (h : Uniform Q op m.context.world) :
    Uniform (fun a m' => ∃ world, Q a world ∧ m' = { m with context := { m.context with world } })
      (fun ledger => onWorld (op ledger)) m := by
  obtain ⟨r, world, hrun, hQ⟩ := h
  exact ⟨r, _, fun ledger hl => onWorld_run (hrun ledger hl), fun a ha => ⟨world, hQ a ha, rfl⟩⟩

/-- Moving value that is there conserves the supply. -/
lemma uniform_transfer (hsupply : supply < 2 ^ 256) {sender : Address} (receiver : Address)
    {value : Word} (hm : m.Conserves supply)
    (hfunds : value ≠ 0 → value.toNat ≤ m.context.world.balanceOf sender) :
    Uniform (fun _ m' => m'.Conserves supply) (fun _ => transfer sender receiver value) m := by
  refine .bind (P := fun _ m' => m'.Conserves supply ∧ m'.context.world = m.context.world)
    (.alone fun _ m' h => ?_) fun _ m₁ hm₁ => ?_
  · obtain rfl := (congrArg Prod.snd h).symm
    exact ⟨hm, rfl⟩
  obtain ⟨hm₁, hworld⟩ := hm₁
  refine .get_bind ?_
  refine (uniform_onWorld (World.uniform_moveValue hm₁ hsupply _ (hworld ▸ hfunds))).mono ?_
  rintro _ _ ⟨world, hw, rfl⟩
  exact hw

lemma Conservative.uniform_runCalled (hrun : Conservative supply run) (hsupply : supply < 2 ^ 256)
    (message : Message) (target : Address) (hm : m.Conserves supply) :
    Uniform (fun _ m' => m'.Conserves supply)
      (fun ledger => runCalled .silent (run ledger) message target) m := by
  have hI := stable_conserves supply
  refine .get_bind ?_
  dsimp only
  split
  · exact .of_keeps (keeps_runPrecompile hI _ message) hm
  · refine .after (keeps_calledCode hI message) hm fun code m hm => ?_
    exact .ite (fun _ => .pure hm) fun _ =>
      (hrun.uniform_runFrame hsupply _ hm).bind fun _ _ hm => .pure hm

/-- A call whose sender holds the value conserves the supply. -/
lemma Conservative.uniform_callBody (hrun : Conservative supply run) (hsupply : supply < 2 ^ 256)
    {message : Message} (target : Address) (hm : m.Conserves supply)
    (hfunds : message.movesValue = true →
      message.value.toNat ≤ m.context.world.balanceOf message.caller) :
    Uniform (fun _ m' => m'.Conserves supply)
      (fun ledger => callBody .silent (run ledger) message target) m := by
  refine .ite (fun hdelegate => ?_) fun _ => hrun.uniform_runCalled hsupply message target hm
  refine (uniform_transfer hsupply target hm fun hvalue => hfunds ?_).bind fun _ _ hm =>
    hrun.uniform_runCalled hsupply message target hm
  rw [Message.movesValue, hdelegate, Bool.true_and]
  exact bne_iff_ne.2 hvalue

/-- A sender that is not found to lack funds holds the value that moves. -/
lemma lacksFunds_run {message : Message} (hw : m.context.world.RecallsAccounts)
    (h : (lacksFunds message).run m = (.ok false, m')) (hmoves : message.movesValue = true) :
    message.value.toNat ≤ m'.context.world.balanceOf message.caller := by
  obtain ⟨world, hread, href⟩ := World.accountOrEmpty_run m.context.world message.caller
  unfold lacksFunds at h
  rw [if_pos hmoves, Program.run_bind, onWorld_run hread] at h
  cases hr : m.context.world.readAccount message.caller with
  | error e =>
    rw [hr] at h
    cases h
  | ok record? =>
    rw [hr] at h
    obtain ⟨hlacks, rfl⟩ := Prod.mk.inj h
    have hfunds := decide_eq_false_iff_not.1 (Except.ok.inj hlacks)
    have hr' := (href.sameRecords.readAccount hw message.caller).trans hr
    rw [World.balanceOf_of_read hr']
    exact BitVec.not_lt.1 hfunds

lemma Conservative.uniform_callFrame (hrun : Conservative supply run) (hsupply : supply < 2 ^ 256)
    (message : Message) (target : Address) (hm : m.Conserves supply) :
    Uniform (fun result m' => result.isOk = true → m'.Conserves supply)
      (fun ledger => callFrame .silent (run ledger) message target) m := by
  have hI := stable_conserves supply
  refine .ite (fun _ => .pure fun _ => hm) fun _ => ?_
  refine .bind (P := fun lacks m' => m'.Conserves supply ∧ (lacks = false →
    message.movesValue = true → message.value.toNat ≤ m'.context.world.balanceOf message.caller))
    (.alone fun lacks m' h => ⟨?_, ?_⟩) fun lacks m hm => ?_
  · have hm' := keeps_lacksFunds hI message m hm
    rwa [h] at hm'
  · rintro rfl
    exact lacksFunds_run hm.recalls h
  obtain ⟨hm, hfunds⟩ := hm
  refine .ite (fun _ => .pure fun _ => hm) fun hlacks => uniform_guarded (fun _ =>
    @keeps_callBody (run saturating) _ saturating hrun.continues message target) hm ?_
  refine (hrun.uniform_callBody hsupply target (m := m.opened) hm.checkpoint ?_).mono
    fun _ _ hm' _ => hm'
  exact fun hmoves => (hfunds (Bool.eq_false_iff.2 hlacks) hmoves).trans
    (World.balanceOf_checkpoint _ _).ge

/-! ## Creations -/

/-- The record that the machine reads. -/
lemma onWorld_accountOrEmpty_run {a : Address} {record : Account} (hm : m.Conserves supply)
    (h : (onWorld (World.accountOrEmpty a)).run m = (.ok record, m')) :
    m'.Conserves supply ∧ m.context.world.SameRecords m'.context.world ∧
      ∃ record?, m'.context.world.readAccount a = .ok record? ∧ record = record?.getD {} := by
  obtain ⟨world, hread, href⟩ := World.accountOrEmpty_run m.context.world a
  rw [onWorld_run hread] at h
  obtain ⟨hrecord, rfl⟩ := Prod.mk.inj h
  obtain ⟨-, record?, hr, rfl⟩ := World.accountOrEmpty_ok (hread.trans (by rw [hrecord]))
  exact ⟨World.Conserves.sameRecords hm href.sameRecords, href.sameRecords, record?,
    (href.sameRecords.readAccount hm.recalls a).trans hr, rfl⟩

/-- Writing back a record with the balance that was read leaves all balances. -/
lemma uniform_putAccount {a : Address} {record : Account} {record? : Option Account}
    (hm : m.Conserves supply) (hread : m.context.world.readAccount a = .ok record?)
    (hbalance : record.balance = (record?.getD {}).balance) :
    Uniform (fun _ m' => m'.Conserves supply ∧
        ∀ b, m'.context.world.balanceOf b = m.context.world.balanceOf b)
      (fun _ => (onWorld (World.putAccount a record) : MachineM StateError Unit Unit)) m := by
  refine .alone fun _ m' h => ?_
  obtain rfl := (congrArg Prod.snd h).symm
  exact ⟨World.Conserves.withAccount hm hread hbalance, fun _ =>
    World.balanceOf_withAccount_of_read hread hbalance⟩

lemma uniform_prepareAccount (hsupply : supply < 2 ^ 256) (message : Message) (a : Address)
    (hm : m.Conserves supply)
    (hfunds : message.value.toNat ≤ m.context.world.balanceOf message.caller) :
    Uniform (fun _ m' => m'.Conserves supply) (fun _ => prepareAccount message a) m := by
  refine .bind (.alone fun record m' h => onWorld_accountOrEmpty_run hm h) fun record m₁ h => ?_
  obtain ⟨hm₁, hsame, record?, hread, rfl⟩ := h
  have hfunds₁ := hfunds.trans (hsame.balanceOf hm.recalls message.caller).ge
  refine .get_bind ?_
  refine .bind (uniform_putAccount hm₁ hread rfl) fun _ m₂ h => ?_
  obtain ⟨hm₂, hbalances⟩ := h
  refine .bind (uniform_transfer hsupply a hm₂ fun _ => hfunds₁.trans (hbalances _).ge)
    fun _ m₃ hm₃ => ?_
  exact .of_keeps (.modify fun _ hm => hm) hm₃

lemma keeps_conserves_deploy (a : Address) (o : Outcome) :
    Keeps (Conserves supply) (deploy a o : MachineM StateError Unit FrameResult) :=
  .bind .get fun _ =>
    .ite (.bind (fun _ hm => World.conserves_install hm a _) fun _ => .pure _) (.pure _)

/-- A creation whose creator holds the value conserves the supply. -/
lemma Conservative.uniform_construct (hrun : Conservative supply run) (hsupply : supply < 2 ^ 256)
    {message : Message} (a : Address) (hm : m.Conserves supply)
    (hfunds : message.value.toNat ≤ m.context.world.balanceOf message.caller) :
    Uniform (fun _ m' => m'.Conserves supply)
      (fun ledger => construct .silent (run ledger) message a) m := by
  have hI := stable_conserves supply
  refine .bind (P := fun _ m' => m'.Conserves supply ∧
    message.value.toNat ≤ m'.context.world.balanceOf message.caller)
    (.alone fun taken m' h => ?_) fun taken m₁ h => ?_
  · have hm' := keeps_isTaken hI a m hm
    have hsame := keeps_isTaken (stable_sameRecords m) a m (.refl _)
    rw [h] at hm' hsame
    exact ⟨hm', hfunds.trans (hsame.balanceOf hm.recalls _).ge⟩
  obtain ⟨hm₁, hfunds₁⟩ := h
  refine .ite (fun _ => .of_keeps (.bind (keeps_report hI nofun) fun _ => .pure _) hm₁) fun _ => ?_
  refine .bind (uniform_prepareAccount hsupply message a hm₁ hfunds₁) fun _ m₂ hm₂ => ?_
  refine .get_bind ?_
  refine .bind (hrun.uniform_runFrame hsupply _ hm₂) fun o m₄ hm₄ => ?_
  exact .of_keeps (.ite (keeps_conserves_deploy a o) (.pure _)) hm₄

lemma Conservative.uniform_createFrame (hrun : Conservative supply run)
    (hsupply : supply < 2 ^ 256) (message : Message) (hm : m.Conserves supply) :
    Uniform (fun result m' => result.isOk = true → m'.Conserves supply)
      (fun ledger => createFrame .silent (run ledger) message) m := by
  refine .ite (fun _ => .pure fun _ => hm) fun _ => ?_
  refine .bind (.alone fun record m' h => onWorld_accountOrEmpty_run hm h) fun creator m₁ h => ?_
  obtain ⟨hm₁, -, record?, hread, rfl⟩ := h
  refine .ite (fun _ => .pure fun _ => hm₁) fun hfunds => ?_
  refine .ite (fun _ => .pure fun _ => hm₁) fun _ => ?_
  refine .bind (uniform_putAccount hm₁ hread rfl) fun _ m₂ h => ?_
  obtain ⟨hm₂, hbalances⟩ := h
  refine .bind (P := fun _ m' => m'.Conserves supply ∧ m'.context.world = m₂.context.world)
    (.alone fun _ m' h => ?_) fun _ m₃ h => ?_
  · obtain rfl := (congrArg Prod.snd h).symm
    exact ⟨hm₂, rfl⟩
  obtain ⟨hm₃, hworld⟩ := h
  refine uniform_guarded (fun _ =>
    @keeps_construct (run saturating) _ saturating hrun.continues message _) hm₃ ?_
  refine (hrun.uniform_construct hsupply (m := m₃.opened) _ hm₃.checkpoint ?_).mono
    fun _ _ hm' _ => hm'
  have hle : message.value.toNat ≤ (record?.getD {}).balance.toNat := BitVec.not_lt.1 hfunds
  rw [← World.balanceOf_of_read hread, ← hbalances, ← hworld] at hle
  exact hle.trans (World.balanceOf_checkpoint _ _).ge

lemma Conservative.uniform_frame (hrun : Conservative supply run) (hsupply : supply < 2 ^ 256)
    (message : Message) (hm : m.Conserves supply) :
    Uniform (fun result m' => result.isOk = true → m'.Conserves supply)
      (fun ledger => frame .silent (run ledger) message) m := by
  unfold frame
  split
  · exact hrun.uniform_callFrame hsupply message _ hm
  · exact hrun.uniform_createFrame hsupply message hm

/-! ## Messages -/

/-- What a failed frame leaves conserves the supply. -/
lemma Context.Left.conserves {c c' : Context} {message : Message} {exactly : Prop}
    (h : c.Left message c') (hc : c.world.Conserves supply exactly) :
    c'.world.Conserves supply exactly := by
  have hunchanged {c c' : Context} (h : c.Unchanged c') (hc : c.world.Conserves supply exactly) :
      c'.world.Conserves supply exactly :=
    hc.sameRecords ⟨h.continues.world, h.agrees.world.accounts⟩
  unfold Context.Left at h
  split at h
  · exact hunchanged h hc
  · rename_i creator hcreator
    obtain ⟨c₁, h₁, h'⟩ := h
    obtain ⟨hread, -⟩ := Context.creator?_eq_some hcreator
    have hread₁ : c₁.world.readAccount message.caller = c.world.readAccount message.caller :=
      World.readAccount_eq h₁.continues.world hc.recalls (by rw [h₁.agrees.world.accounts])
    refine hunchanged h' ?_
    cases hr : c.world.readAccount message.caller with
    | error e =>
      rw [hr] at hread
      cases hread
    | ok record? =>
      rw [hr] at hread
      cases hread
      exact (hunchanged h₁ hc).withAccount (hread₁.trans hr) rfl

/-- What a message destroyed and what was destroyed before it are all that is destroyed after it. -/
lemma destroyed_diff_eq_empty {before after : AddressSet} (h : before = ∅)
    (hadded : after \ before = ∅) : after = ∅ := by
  subst h
  refine Std.ExtTreeSet.eq_empty_iff_forall_not_mem.2 fun a ha => ?_
  refine Std.ExtTreeSet.eq_empty_iff_forall_not_mem.1 hadded a ?_
  exact Std.ExtTreeSet.mem_diff_iff.2 ⟨ha, Std.ExtTreeSet.not_mem_empty⟩

lemma Conservative.executeWith (hrun : Conservative supply run) (hsupply : supply < 2 ^ 256) :
    Conservative supply fun ledger => @executeWith Unit ledger .silent (run ledger) where
  continues := @executeWith_continues (run saturating) saturating hrun.continues
  error message m m' e exactly h hm := by
    obtain ⟨hleft, -, hsubstate, -⟩ :=
      @executeWith_failed (run saturating) message _ m m' saturating hrun.continues h rfl
    exact ⟨hsubstate, Context.Left.conserves hleft hm⟩
  uniform message m hm := by
    obtain ⟨r, m₁, hframe, hok⟩ := hrun.uniform_frame hsupply message (m := m.entered message) hm
    refine .of_eq (fun ledger h => ?_) fun result m' hresult => ?_
    · rw [@executeWith_run Unit ledger, @executeWith_run Unit saturating, hframe ledger h,
        hframe saturating Ledger.exact_saturating]
    · cases hisOk : result.isOk with
      | false =>
        obtain ⟨hleft, -, hsubstate, -⟩ :=
          @executeWith_failed (run saturating) message _ m m' saturating hrun.continues hresult hisOk
        exact ⟨hsubstate, (Context.Left.conserves hleft hm).mono And.left⟩
      | true =>
        rw [@executeWith_run Unit saturating, hframe saturating Ledger.exact_saturating] at hresult
        cases r with
        | error e => cases hresult
        | ok frame =>
          obtain ⟨hframe, rfl⟩ := Prod.mk.inj hresult
          obtain rfl := Except.ok.inj hframe
          rw [FrameResult.isOk_withSubstate] at hisOk
          refine ⟨rfl, (hok frame rfl hisOk).mono ?_⟩
          rintro ⟨hbefore, hadded⟩
          rw [FrameResult.withSubstate, if_pos hisOk] at hadded
          exact destroyed_diff_eq_empty hbefore (hadded rfl)

end Evm.Machine
