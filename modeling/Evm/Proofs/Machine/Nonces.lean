import Evm.Proofs.Machine.Evolution

/-!
# Accounts that have a nonce

A pending record with a nonce never gives way to one without (`World.Numbered`): what is written
back of a record has the nonce that was read or the next one, a creation stops at an address whose
account has a nonce, and a checkpoint that is given up brings back the record from before. The clean
layers play no part in this, since a pending record is never read from them. It is proved of the
operations on the world, of the machine as a host, and by induction on the levels of messages of
executions.
-/

namespace Evm

/-! ## Operations on the world -/

namespace World

/-- A record of the account is pending, and it has a nonce. -/
def Numbered (a : Address) (w : World) : Prop :=
  ∃ record, w.accounts.dirty[a]? = some (some record) ∧ record.nonce ≠ 0

namespace Numbered

variable {w w' : World} {a : Address}

lemma congr (h : Numbered a w) (hdirty : w'.accounts.dirty = w.accounts.dirty) :
    Numbered a w' := by
  unfold Numbered
  rw [hdirty]
  exact h

/-- It is what is read of the account. -/
lemma readAccount (h : Numbered a w) :
    ∃ record, w.readAccount a = .ok (some record) ∧ record.nonce ≠ 0 := by
  obtain ⟨record, hdirty, hnonce⟩ := h
  exact ⟨record, readAccount_of_dirty hdirty, hnonce⟩

/-- A record may be put that has a nonce, or that is of another account. -/
lemma put {b : Address} {record : Account} (h : Numbered a w)
    (hrecord : b = a → record.nonce ≠ 0) : Numbered a (w.withAccount b (some record)) := by
  by_cases heq : a = b
  · exact ⟨record, (Cache.getElem?_dirty_write ..).trans (if_pos heq), hrecord heq.symm⟩
  · obtain ⟨record₀, hdirty, hnonce⟩ := h
    exact ⟨record₀, ((Cache.getElem?_dirty_write ..).trans (if_neg heq)).trans hdirty, hnonce⟩

lemma ends_putAccount {b : Address} {record : Account} (h : Numbered a w)
    (hrecord : b = a → record.nonce ≠ 0) :
    Ends (Numbered a) (fun _ _ => True) (putAccount b record) w :=
  .of_run (putAccount_run w b record) (h.put hrecord) fun _ _ => trivial

/-- Of the account itself, a record with a nonce is read. -/
lemma ends_account (h : Numbered a w) (b : Address) :
    Ends (Numbered a) (fun record? _ => b = a → ∃ record, record? = some record ∧ record.nonce ≠ 0)
      (account b) w := by
  obtain ⟨w', hrun, href⟩ := account_run w b
  refine .of_run hrun (h.congr href.accounts.dirty) ?_
  rintro record? hok rfl
  obtain ⟨record, hread, hnonce⟩ := h.readAccount
  exact ⟨record, Except.ok.inj (hok.symm.trans hread), hnonce⟩

lemma ends_accountOrEmpty (h : Numbered a w) (b : Address) :
    Ends (Numbered a) (fun record _ => b = a → record.nonce ≠ 0) (accountOrEmpty b) w := by
  refine .bind (h.ends_account b) fun record? w' h' hrecord => .pure h' fun heq => ?_
  obtain ⟨record, rfl, hnonce⟩ := hrecord heq
  exact hnonce

lemma ends_exists? (h : Numbered a w) (b : Address) :
    Ends (Numbered a) (fun there _ => b = a → there = true) (exists? b) w := by
  refine .bind (h.ends_account b) fun record? w' h' hrecord => .pure h' fun heq => ?_
  obtain ⟨record, rfl, -⟩ := hrecord heq
  rfl

lemma ends_moveValue [Ledger] (h : Numbered a w) (features : Features) (sender receiver : Address)
    (value : Word) :
    Ends (Numbered a) (fun _ _ => True) (Machine.moveValue features sender receiver value) w := by
  unfold Machine.moveValue
  refine .ite (fun _ => .ite (fun _ => ?_) fun _ => .pure h trivial) fun _ => ?_
  · refine .bind (h.ends_exists? receiver) fun there w₁ h₁ hthere => ?_
    refine .ite (fun hnone => ?_) fun _ => .pure h₁ trivial
    -- A record without a nonce is written only where there was none.
    refine h₁.ends_putAccount fun heq => ?_
    rw [hthere heq] at hnone
    cases hnone
  · refine .bind (h.ends_accountOrEmpty sender) fun giving w₁ h₁ hgiving => ?_
    refine .bind (.of_keeps (Machine.keeps_withdraw _ _) h₁) fun _ w₂ h₂ _ => ?_
    refine .bind (h₂.ends_putAccount hgiving) fun _ w₃ h₃ _ => ?_
    refine .bind (h₃.ends_accountOrEmpty receiver) fun taking w₄ h₄ htaking => ?_
    refine .bind (.of_keeps (Machine.keeps_deposit _ _) h₄) fun _ w₅ h₅ _ => ?_
    exact h₅.ends_putAccount htaking

lemma ends_sweep [Ledger] (h : Numbered a w) {b beneficiary : Address} {record target : Account}
    (hrecord : b = a → record.nonce ≠ 0) (htarget : beneficiary = a → target.nonce ≠ 0)
    (deletes : Bool) :
    Ends (Numbered a) (fun _ _ => True) (Machine.sweep b beneficiary record target deletes) w := by
  refine .ite (fun _ => ?_) fun _ => h.ends_putAccount ?_
  · refine .bind (.of_keeps (Machine.keeps_deposit _ _) h) fun _ w₁ h₁ _ => ?_
    refine .bind (h₁.ends_putAccount htarget) fun _ w₂ h₂ _ => ?_
    exact h₂.ends_putAccount hrecord
  · cases deletes with
    | true => exact hrecord
    | false => exact hrecord

lemma ends_install (h : Numbered a w) (b : Address) (output : Bytes) :
    Ends (Numbered a) (fun _ _ => True) (Machine.install b output) w := by
  have hcode : Numbered a ((putCode (Code.ofBytes output)).run w).2 :=
    h.congr (sameRecords_putCode w _).dirty
  refine .bind (P := fun _ _ => True) ⟨hcode, fun _ _ _ => trivial⟩ fun _ w₁ h₁ _ => ?_
  refine .bind (h₁.ends_accountOrEmpty b) fun record w₂ h₂ hrecord => ?_
  exact h₂.ends_putAccount hrecord

end Numbered

end World

namespace Machine

variable {a : Address} {m : Machine Unit}

/-- A record of the account is pending on the machine, and it has a nonce. -/
def Numbered (a : Address) (m : Machine Unit) : Prop := World.Numbered a m.context.world

lemma stable_numbered : Stable (Numbered a) where
  refreshed hm h := World.Numbered.congr hm h.accounts.dirty
  journal hm _ := hm
  report _ hm := hm
  parked hm := hm

/-! ## The machine as a host -/

/-- Both accounts keep the nonces that they have. -/
lemma numbered_selfDestruct [Ledger] (b beneficiary : Address) :
    HostM.Keeps (Numbered a) (selfDestruct .silent b beneficiary) := by
  intro m hm
  have hI : Stable (Numbered a) := stable_numbered
  suffices HostM.Ends (Numbered a) (fun _ _ => True) (selfDestruct .silent b beneficiary) m
    from this.1
  unfold selfDestruct
  refine .get_bind ?_
  refine .bind (.of_keeps (keeps_access hI beneficiary) hm) fun _ m₁ h₁ _ => ?_
  refine .bind (ends_attempt hI (World.Numbered.ends_account h₁ beneficiary))
    fun target? m₂ h₂ htarget => ?_
  refine .bind (ends_attempt hI (World.Numbered.ends_accountOrEmpty h₂ b))
    fun record m₃ h₃ hrecord => .get_bind ?_
  have hgetD (heq : beneficiary = a) : (target?.getD {}).nonce ≠ 0 := by
    obtain ⟨target, rfl, hnonce⟩ := htarget heq
    exact hnonce
  refine .bind (ends_attempt hI (World.Numbered.ends_sweep h₃ hrecord hgetD _))
    fun _ m₄ h₄ _ => ?_
  exact .step rfl (.step rfl ⟨h₄, fun _ _ _ => trivial⟩)

/-- Running messages leaves accounts the nonces that they have. -/
def RunNumbers (a : Address) (run : Message → MachineM StateError Unit FrameResult) : Prop :=
  ∀ message, Keeps (Numbered a) (run message)

variable {run : Message → MachineM StateError Unit FrameResult}

lemma runChild_numbered (hrun : RunNumbers a run) (message : Message) (hm : m.Numbered a) :
    (runChild run message m).2.Numbered a := by
  have h := hrun message m hm
  unfold runChild
  split <;> rename_i hr <;> rw [hr] at h
  · exact h
  · exact h

lemma move_numbered [Ledger] (hrun : RunNumbers a run) {x y : Frame × Machine Unit}
    (h : (host .silent run).Move x y) (hx : x.2.Numbered a) : y.2.Numbered a := by
  have hI : Stable (Numbered a) := stable_numbered
  cases h with
  | alone => exact hx
  | presence b => exact keeps_presence hI b _ hx
  | balance b => exact keeps_balance hI b _ hx
  | code b => exact keeps_code hI b _ hx
  | codeHash b => exact keeps_codeHash hI b _ hx
  | loadSlot index => exact keeps_loadSlot hI _ index _ hx
  | storeSlot index value =>
    refine keeps_storeSlot hI _ index value (fun m hm => ?_) _ hx
    exact World.Numbered.congr hm (World.sameRecords_setSlot _ _ index value).dirty
  | loadTransient => exact hx
  | storeTransient => exact hx
  | log => exact hx
  | selfDestruct beneficiary => exact numbered_selfDestruct _ beneficiary _ hx
  | create _ _ hcreate =>
    have hchild := (create_silent _ _).symm.trans hcreate
    rw [← (Prod.ext_iff.1 hchild).2]
    exact runChild_numbered hrun _ hx
  | call _ _ hcall =>
    have hchild := (call_silent _ _).symm.trans hcall
    rw [← (Prod.ext_iff.1 hchild).2]
    exact runChild_numbered hrun _ hx

/-! ## Frames -/

section

variable [Ledger] (hrun : RunNumbers a run)

include hrun

lemma numbered_runFrame (f : Frame) : Keeps (Numbered a) (runFrame .silent run f) := by
  intro m hm
  have hreaches := Host.run_reaches (host_silent run) f m
  rw [runFrame_run]
  generalize (host .silent run).run f m = y at hreaches
  -- By induction on the moves of the frame; a parked failure changes nothing.
  have hy : y.2.Numbered a := by
    induction hreaches with
    | refl => exact hm
    | tail _ hmove ih => exact move_numbered hrun hmove ih
  dsimp only
  split
  · exact hy
  · exact hy

omit hrun in
lemma numbered_transfer (sender receiver : Address) (value : Word) :
    Keeps (Numbered a) (transfer sender receiver value : MachineM StateError Unit Unit) := by
  refine .bind (keeps_onJournal stable_numbered fun j => j.notes_touch receiver) fun _ =>
    .bind .get fun _ m hm => ?_
  exact (ends_onWorld (World.Numbered.ends_moveValue hm _ sender receiver value)).1

lemma numbered_runCalled (message : Message) (target : Address) :
    Keeps (Numbered a) (runCalled .silent run message target) := by
  have hI : Stable (Numbered a) := stable_numbered
  refine .bind .get fun _ => ?_
  dsimp only
  split
  · exact keeps_runPrecompile hI _ _
  · exact .bind (keeps_calledCode hI _) fun _ =>
      .ite (.pure _) (.bind (numbered_runFrame hrun _) fun _ => .pure _)

lemma numbered_callBody (message : Message) (target : Address) :
    Keeps (Numbered a) (callBody .silent run message target) :=
  .ite (.bind (numbered_transfer _ _ _) fun _ => numbered_runCalled hrun _ _)
    (numbered_runCalled hrun _ _)

omit hrun in
/-- The record of a new contract is not that of the account. -/
lemma numbered_prepareAccount {b : Address} (hne : b ≠ a) (message : Message) :
    Keeps (Numbered a) (prepareAccount message b : MachineM StateError Unit Unit) := by
  have hput (record : Account) :
      Keeps (Numbered a) (onWorld (World.putAccount b record) : MachineM StateError Unit Unit) :=
    fun _ hm => (ends_onWorld (World.Numbered.ends_putAccount hm fun heq => absurd heq hne)).1
  exact .bind (keeps_onRead stable_numbered (World.reading_accountOrEmpty b)) fun _ =>
    .bind .get fun _ => .bind (hput _) fun _ => .bind (numbered_transfer _ _ _) fun _ =>
      .modify fun _ hm => hm

omit hrun [Ledger] in
lemma numbered_deploy (b : Address) (o : Outcome) :
    Keeps (Numbered a) (deploy b o : MachineM StateError Unit FrameResult) := by
  have hinstall (output : Bytes) :
      Keeps (Numbered a) (onWorld (install b output) : MachineM StateError Unit Unit) :=
    fun _ hm => (ends_onWorld (World.Numbered.ends_install hm b output)).1
  exact .bind .get fun _ => .ite (.bind (hinstall _) fun _ => .pure _) (.pure _)

omit hrun [Ledger] in
/-- An account with a nonce is in the way of a contract at its address. -/
lemma ends_isTaken_numbered (hm : m.Numbered a) (b : Address) :
    Ends (Numbered a) (fun taken _ => b = a → taken = true)
      (isTaken b : MachineM StateError Unit Bool) m := by
  refine .bind (ends_onWorld (World.Numbered.ends_account hm b)) fun record? m₁ h₁ hrecord => ?_
  cases record? with
  | none =>
    refine .pure h₁ fun heq => ?_
    obtain ⟨record, hnone, -⟩ := hrecord heq
    cases hnone
  | some record =>
    refine .pure h₁ fun heq => ?_
    obtain ⟨_, hsome, hnonce⟩ := hrecord heq
    cases hsome
    exact Account.isTaken_of_nonce hnonce

lemma numbered_construct (message : Message) (b : Address) :
    Keeps (Numbered a) (construct .silent run message b) := by
  intro m hm
  suffices Ends (Numbered a) (fun _ _ => True) (construct .silent run message b) m from this.1
  refine .bind (ends_isTaken_numbered hm b) fun taken m₁ h₁ htaken => ?_
  refine .ite (fun _ => ?_) fun hfree => ?_
  · exact .of_keeps (.bind (keeps_report stable_numbered nofun) fun _ => .pure _) h₁
  · have hne : b ≠ a := fun heq => hfree (htaken heq)
    exact .of_keeps (.bind (numbered_prepareAccount hne message) fun _ => .bind .get fun _ =>
      .bind (numbered_runFrame hrun _) fun _ => .ite (numbered_deploy _ _) (.pure _)) h₁

omit hrun [Ledger] in
/-- A checkpoint gives back the pending records from before, or keeps those that there are. -/
lemma numbered_guarded {body : MachineM StateError Unit FrameResult}
    (hbody : ∀ m₀ : Machine Unit, Keeps m₀.Continues body) (h : Keeps (Numbered a) body) :
    Keeps (Numbered a) (guarded .cache FrameResult.isOk body) := by
  intro m hm
  obtain ⟨m', hguarded, -, -, -, hagrees⟩ := guarded_run .cache FrameResult.isOk
    (Prod.mk.eta (p := body.run m.opened)).symm (hbody _ _ (.refl _))
  rw [hguarded]
  split at hagrees
  · exact World.Numbered.congr (h m.opened hm) hagrees.world.accounts
  · exact World.Numbered.congr hm hagrees.world.accounts

variable (hcontinues : RunContinues run)

include hcontinues

lemma numbered_callFrame (message : Message) (target : Address) :
    Keeps (Numbered a) (callFrame .silent run message target) :=
  .ite (.pure _) <| .bind (keeps_lacksFunds stable_numbered message) fun _ => .ite (.pure _) <|
    numbered_guarded (fun _ => keeps_callBody hcontinues message target)
      (numbered_callBody hrun message target)

/-- The creator gets its next nonce, which is not zero. -/
lemma numbered_createFrame (message : Message) :
    Keeps (Numbered a) (createFrame .silent run message) := by
  intro m hm
  suffices Ends (Numbered a) (fun _ _ => True) (createFrame .silent run message) m from this.1
  refine .ite (fun _ => .pure hm trivial) fun _ => ?_
  refine .bind (ends_onWorld (World.Numbered.ends_accountOrEmpty hm message.caller))
    fun creator m₁ h₁ _ => ?_
  refine .ite (fun _ => .pure h₁ trivial) fun _ => .ite (fun _ => .pure h₁ trivial) fun hmax => ?_
  have hnonce : creator.nonce + 1 ≠ 0 := Context.succ_ne_zero_of_ne_max hmax
  refine .bind (ends_onWorld (World.Numbered.ends_putAccount h₁ fun _ => hnonce))
    fun _ m₂ h₂ _ => ?_
  exact .of_keeps (.bind (keeps_onJournal stable_numbered fun j => j.notes_access _) fun _ =>
    numbered_guarded (fun _ => keeps_construct hcontinues message _)
      (numbered_construct hrun message _)) h₂

lemma numbered_executeWith : RunNumbers a (executeWith .silent run) := by
  intro message m hm
  have h : Keeps (Numbered a) (frame .silent run message) := by
    unfold frame
    split
    · exact numbered_callFrame hrun hcontinues message _
    · exact numbered_createFrame hrun hcontinues message
  have hends := h (m.entered message) hm
  rw [executeWith_run]
  split <;> rename_i hr <;> rw [hr] at hends
  · exact hends
  · exact hends

end

/-! ## Messages -/

lemma numbered_executeWithin [Ledger] (levels : Nat) :
    RunNumbers a (executeWithin .silent levels) := by
  induction levels with
  | zero => exact numbered_executeWith (fun _ => .pure _) idle_continues
  | succ levels ih => exact numbered_executeWith ih (executeWithin_continues levels)

/-- No message takes an account the nonce that its pending record has. -/
theorem numbered_execute [Ledger] : RunNumbers a (execute .silent) :=
  fun message => numbered_executeWithin _ message

end Machine

end Evm
