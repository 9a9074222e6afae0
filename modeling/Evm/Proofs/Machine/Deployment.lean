import Evm.Proofs.Machine.Nonces
import Evm.Proofs.Machine.Termination
import Evm.Proofs.State.Requests

/-!
# New contracts

What a creation comes to whose frame succeeds (`execute_deploys`). The address of the new contract
was free, as far as the store is not contradicted by a clean layer that may forget; the code that is
put in place is the output of the frame, it keeps to the limits of the fork, and the frame has paid
for it on top of what its init code spent. In between the init code may run any messages, and a
reverted one takes nothing away from the new account (`Builds.numbered`).
-/

namespace Evm

/-- Code has the hash of its bytes. -/
lemma Code.hash_ofBytes (bytes : Bytes) :
    (Code.ofBytes bytes).hash = Crypto.Keccak.hash bytes := by
  change (if bytes.isEmpty then emptyHash else _) = _
  split
  · rename_i hempty
    rw [Array.isEmpty_iff.1 hempty]
    decide +kernel
  · rfl

/-! ## Code that is put in place -/

namespace World

variable {w w' : World} {a : Address} {code : Code} {output : Bytes}

/-- A record of the account with the hash of the code is pending, and so is the code. -/
structure Holds (w : World) (a : Address) (code : Code) : Prop where
  account : ∃ record, w.accounts.dirty[a]? = some (some record) ∧ record.codeHash = code.hash
  code : code.hash ≠ emptyHash → w.code.dirty[code.hash]? = some (some code)

lemma Holds.congr (h : w.Holds a code) (hw : w.SamePending w') : w'.Holds a code := by
  refine ⟨?_, ?_⟩
  · rw [hw.accounts]
    exact h.account
  · rw [hw.code]
    exact h.code

/-- The code is what is read under its hash, unless that is one which stands for no code. -/
lemma Holds.readCode (h : w.Holds a (Code.ofBytes output))
    (hhash : output ≠ #[] → Crypto.Keccak.hash output ≠ 0 ∧ Crypto.Keccak.hash output ≠ emptyHash) :
    (w.readCode (Crypto.Keccak.hash output)).map Code.bytes = .ok output := by
  rw [← Code.hash_ofBytes] at hhash ⊢
  by_cases hempty : output = #[]
  · subst hempty
    rfl
  · obtain ⟨hzero, hne⟩ := hhash hempty
    rw [readCode_of_dirty (fun hor => hor.elim hne hzero) (h.code hne)]
    rfl

lemma install_holds (h : (Machine.install a output).run w = (.ok (), w')) :
    w'.Holds a (Code.ofBytes output) := by
  obtain ⟨_, w₁, hput, hrest⟩ := Program.run_bind_eq_ok h
  obtain ⟨record, w₂, hread, hwrite⟩ := Program.run_bind_eq_ok hrest
  obtain ⟨href, -⟩ := accountOrEmpty_ok hread
  rw [putAccount_run] at hwrite
  cases hwrite
  refine ⟨⟨_, (Cache.getElem?_dirty_write ..).trans (if_pos rfl), rfl⟩, fun hne => ?_⟩
  change w₂.code.dirty[_]? = _
  rw [href.code.dirty]
  unfold putCode at hput
  rw [if_pos hne] at hput
  cases hput
  exact (Cache.getElem?_dirty_write ..).trans (if_pos rfl)

end World

namespace Machine

/-! ## The end of init code -/

section

variable {features : Features} {codeLimit : Nat} {o : Outcome}

/-- Code that is deployed keeps to the limits and is paid for. -/
structure Deployable (features : Features) (codeLimit : Nat) (o o' : Outcome) : Prop where
  limit : features.has .eip170 = true → o'.output.size ≤ codeLimit
  reserved : features.has .eip3541 = true → o'.output[0]? ≠ some 0xef
  paid : o'.gas.spent = o.gas.spent + 200 * o'.output.size

/-- Where the code is dropped that cannot be paid for, none is deployed and none is paid for. -/
lemma deployable_of_isOk (hgas : o.gas.remaining ≤ o.gas.limit)
    (h : (deployment features codeLimit o).isOk = true) :
    Deployable features codeLimit o (deployment features codeLimit o) := by
  unfold deployment at h ⊢
  split at h
  · cases h
  rename_i hreserved
  rw [if_neg hreserved]
  split at h
  · cases h
  rename_i hlimit
  rw [if_neg hlimit]
  have hreserved' (hrule : features.has .eip3541 = true) : o.output[0]? ≠ some 0xef := by
    rw [hrule, Bool.true_and, beq_iff_eq] at hreserved
    exact hreserved
  have hlimit' (hrule : features.has .eip170 = true) : o.output.size ≤ codeLimit := by
    rw [hrule, Bool.true_and, decide_eq_true_iff] at hlimit
    exact Nat.le_of_not_lt hlimit
  split at h
  · rename_i gas hpaid
    obtain ⟨hcost, rfl⟩ := Gas.Meter.pay?_eq_some hpaid
    refine ⟨hlimit', hreserved', ?_⟩
    unfold Gas.Meter.spent Gas.codeDeposit at *
    dsimp only
    omega
  · split at h
    · cases h
    rename_i hdrops
    rw [if_neg hdrops]
    exact ⟨fun _ => Nat.zero_le _, fun _ => nofun, rfl⟩

end

section

variable [Ledger] {run : Message → MachineM StateError Unit FrameResult} {message : Message}
  {m m' : Machine Unit} {a : Address} {frame : FrameResult}

/-- The meter of a frame that has ended is within its limit. -/
lemma remaining_le_limit_runFrame (hrun : RunWithin run) (invocation : Invocation)
    (gasLimit : Nat) :
    Gives (fun o : Outcome => o.gas.remaining ≤ o.gas.limit)
      (runFrame .silent run (Frame.start invocation gasLimit)) := by
  intro m m' o h
  have hremaining := gives_runFrame hrun invocation gasLimit m m' o h
  have hlimit := reaches_limit
    (Host.run_reaches (host_silent run) (Frame.start invocation gasLimit) m)
  rw [runFrame_run] at h
  rcases hy : (host .silent run).run (Frame.start invocation gasLimit) m with ⟨f', m₁⟩
  rw [hy] at h hlimit
  dsimp only at h hlimit
  split at h <;> cases h
  have hends : f'.outcome.gas.limit = f'.gas.limit := by
    unfold Frame.outcome
    split
    · rfl
    · rfl
  rw [hends, hlimit]
  exact hremaining

/-! ## Creations that succeed -/

/-- The steps of a creation in its checkpoint up to the end of its init code, whether or not the
address is free. -/
def runInitCode (run : Message → MachineM StateError Unit FrameResult) (message : Message)
    (a : Address) : MachineM StateError Unit Outcome := do
  let _ ← isTaken a
  prepareAccount message a
  let invocation := message.initInvocation a (← get).features
  runFrame .silent run (Frame.start invocation message.gasLimit)

/-- The steps of a creation in its checkpoint: the address is free, the account is prepared, the
init code succeeds, and what that gave back is deployed. -/
structure Builds (run : Message → MachineM StateError Unit FrameResult) (message : Message)
    (a : Address) (frame : FrameResult) (o : Outcome) (m m₁ m₂ m₃ m' : Machine Unit) : Prop where
  free : (isTaken a).run m = (.ok false, m₁)
  prepared : (prepareAccount message a).run m₁ = (.ok (), m₂)
  init : (runFrame .silent run
    (Frame.start (message.initInvocation a m₂.features) message.gasLimit)).run m₂ = (.ok o, m₃)
  isOk : o.isOk = true
  deployed : (deploy a o).run m₃ = (.ok frame, m')

/-- A creation that succeeds has taken all of these steps. -/
lemma construct_eq_ok (h : (construct .silent run message a).run m = (.ok frame, m'))
    (hok : frame.isOk = true) :
    ∃ o m₁ m₂ m₃, Builds run message a frame o m m₁ m₂ m₃ m' := by
  obtain ⟨taken, m₁, hfree, hrest⟩ := Program.run_bind_eq_ok h
  cases taken with
  | true =>
    cases hrest
    cases hok
  | false =>
    obtain ⟨⟨⟩, m₂, hprepared, hrest⟩ := Program.run_bind_eq_ok hrest
    rw [Program.run_bind_ok (Program.run_get _)] at hrest
    obtain ⟨o, m₃, hinit, hrest⟩ := Program.run_bind_eq_ok hrest
    cases hends : o.isOk with
    | true =>
      rw [hends, if_pos rfl] at hrest
      exact ⟨o, m₁, m₂, m₃, hfree, hprepared, hinit, hends, hrest⟩
    | false =>
      rw [hends, if_neg Bool.false_ne_true] at hrest
      cases hrest
      rw [FrameResult.isOk, hends] at hok
      cases hok

omit [Ledger] in
/-- What is free is not there, or it has neither nonce nor code. -/
lemma isTaken_eq_false (h : (isTaken a).run m = (.ok false, m')) :
    ∃ record?, m.context.world.readAccount a = .ok record? ∧
      ∀ record ∈ record?, record.nonce = 0 ∧ record.hasCode = false := by
  obtain ⟨world, hrun, -⟩ := World.account_run m.context.world a
  unfold isTaken at h
  rw [Program.run_bind, onWorld_run hrun] at h
  cases hread : m.context.world.readAccount a with
  | error e =>
    rw [hread] at h
    cases h
  | ok record? =>
    refine ⟨record?, rfl, ?_⟩
    rintro record rfl
    rw [hread] at h
    have hfree : (record.nonce != 0 || record.hasCode) = false :=
      Except.ok.inj (congrArg Prod.fst h)
    rwa [Bool.or_eq_false_iff, bne_eq_false_iff_eq] at hfree

/-- Where it is so ruled, the account of a new contract starts with a nonce. -/
lemma prepareAccount_numbered (hrule : m.features.has .eip161 = true)
    (h : (prepareAccount message a).run m = (.ok (), m')) : m'.Numbered a := by
  obtain ⟨record, m₁, hread, hrest⟩ := Program.run_bind_eq_ok h
  have hrule₁ : m₁.features.has .eip161 = true := by
    obtain ⟨world, hrun, -⟩ := World.accountOrEmpty_run m.context.world a
    rw [onWorld_run hrun] at hread
    rw [← (Prod.mk.inj hread).2]
    exact hrule
  rw [Program.run_bind_ok (Program.run_get _)] at hrest
  dsimp only at hrest
  rw [if_pos hrule₁] at hrest
  obtain ⟨⟨⟩, m₂, hput, hrest⟩ := Program.run_bind_eq_ok hrest
  have hm₂ : m₂.Numbered a := by
    have hone : (1 : UInt64) ≠ 0 := by decide
    rw [onWorld_run (World.putAccount_run m₁.context.world a _)] at hput
    rw [← (Prod.mk.inj hput).2]
    exact ⟨_, (Cache.getElem?_dirty_write ..).trans (if_pos rfl), hone⟩
  have hkeeps : Keeps (Numbered a) (do
      transfer message.caller a message.value
      modify fun m => { m with
        substate := { m.substate with created := m.substate.created.insert a } } :
      MachineM StateError Unit Unit) :=
    .bind (numbered_transfer _ _ _) fun _ => .modify fun _ hm => hm
  have hm' := hkeeps m₂ hm₂
  rwa [hrest] at hm'

omit [Ledger] in
/-- What is deployed is put in place. -/
lemma deploy_eq_ok {o : Outcome} (h : (deploy a o).run m = (.ok frame, m'))
    (hok : frame.isOk = true) :
    frame = { outcome := deployment m.features m.context.env.config.codeLimit o
              address? := some a } ∧
      (install a frame.outcome.output).run m.context.world = (.ok (), m'.context.world) := by
  unfold deploy at h
  rw [Program.run_bind_ok (Program.run_get _)] at h
  dsimp only at h
  split at h
  · obtain ⟨⟨⟩, m₁, hinstall, hrest⟩ := Program.run_bind_eq_ok h
    cases hrest
    refine ⟨rfl, ?_⟩
    rcases hrun : (install a (deployment m.features m.context.env.config.codeLimit o).output).run
      m.context.world with ⟨r, world⟩
    rw [onWorld_run hrun] at hinstall
    cases hinstall
    rfl
  · rename_i hfails
    cases h
    exact absurd hok hfails

namespace Builds

variable {o : Outcome} {m₁ m₂ m₃ : Machine Unit}

lemma runInitCode_run (h : Builds run message a frame o m m₁ m₂ m₃ m') :
    (runInitCode run message a).run m = (.ok o, m₃) := by
  unfold runInitCode
  rw [Program.run_bind_ok h.free, Program.run_bind_ok h.prepared,
    Program.run_bind_ok (Program.run_get _)]
  exact h.init

/-- The environment stays the same. -/
lemma env (h : Builds run message a frame o m m₁ m₂ m₃ m') (hrun : RunContinues run) :
    m₁.context.env = m.context.env ∧ m₃.context.env = m.context.env := by
  have h₁ := keeps_isTaken (stable_continues m) a m (.refl m)
  rw [h.free] at h₁
  have h₂ := keeps_prepareAccount (robust_continues m) message a m₁ h₁
  rw [h.prepared] at h₂
  have h₃ := keeps_runFrame hrun
    (Frame.start (message.initInvocation a m₂.features) message.gasLimit) m₂ h₂
  rw [h.init] at h₃
  exact ⟨h₁.context.env, h₃.context.env⟩

/-- Where it is so ruled, the new contract has a nonce: it starts with one, and its init code does
not take it away. -/
lemma numbered (h : Builds run message a frame o m m₁ m₂ m₃ m') (hrun : RunContinues run)
    (hnumbers : RunNumbers a run) (hrule : m.features.has .eip161 = true) : m'.Numbered a := by
  have hrule₁ : m₁.features.has .eip161 = true := by
    rw [← hrule]
    exact congrArg (fun env : Env => env.features.has .eip161) (h.env hrun).1
  have h₂ := prepareAccount_numbered hrule₁ h.prepared
  have h₃ := numbered_runFrame hnumbers
    (Frame.start (message.initInvocation a m₂.features) message.gasLimit) m₂ h₂
  rw [h.init] at h₃
  have h₄ := numbered_deploy a o m₃ h₃
  rwa [h.deployed] at h₄

/-- The frame ends as its init code does after the deployment, and its output is in place. -/
lemma ends (h : Builds run message a frame o m m₁ m₂ m₃ m') (hrun : RunContinues run)
    (hok : frame.isOk = true) :
    frame = { outcome := deployment m.features m.context.env.config.codeLimit o
              address? := some a } ∧
      m'.context.world.Holds a (Code.ofBytes frame.outcome.output) := by
  obtain ⟨hframe, hinstall⟩ := deploy_eq_ok h.deployed hok
  have henv := (h.env hrun).2
  unfold features Context.features at hframe ⊢
  rw [henv] at hframe
  exact ⟨hframe, World.install_holds hinstall⟩

/-- The output keeps to the limits and has been paid for. -/
lemma deployable (h : Builds run message a frame o m m₁ m₂ m₃ m') (hrun : RunContinues run)
    (hwithin : RunWithin run) (hok : frame.isOk = true) :
    Deployable m.features m.context.env.config.codeLimit o frame.outcome := by
  obtain ⟨hframe, -⟩ := h.ends hrun hok
  have hgas := remaining_le_limit_runFrame hwithin _ _ _ _ _ h.init
  rw [hframe] at hok ⊢
  exact deployable_of_isOk hgas hok

end Builds

omit [Ledger] in
/-- A frame that succeeds keeps what was done in its checkpoint. -/
lemma kept_eq_ok {body : MachineM StateError Unit FrameResult}
    (hbody : ∀ m₀ : Machine Unit, Keeps m₀.Continues body)
    (h : (guarded .cache FrameResult.isOk body).run m = (.ok frame, m')) (hok : frame.isOk = true) :
    ∃ m₁, body.run m.opened = (.ok frame, m₁) ∧ m₁.context.Agrees m'.context := by
  rcases hrun : body.run m.opened with ⟨r, m₁⟩
  have hcontinues := hbody m.opened m.opened (.refl _)
  rw [hrun] at hcontinues
  obtain ⟨m₂, hguarded, -, -, -, hagrees⟩ := guarded_run .cache FrameResult.isOk hrun hcontinues
  obtain ⟨rfl, rfl⟩ := Prod.mk.inj (hguarded.symm.trans h)
  rw [isKept, hok, if_pos rfl] at hagrees
  exact ⟨m₁, rfl, hagrees⟩

/-- Before that, a creation that succeeds has raised the nonce of its creator. -/
lemma createFrame_eq_ok (h : (createFrame .silent run message).run m = (.ok frame, m'))
    (hok : frame.isOk = true) :
    ∃ creator world, (World.accountOrEmpty message.caller).run m.context.world =
        (.ok creator, world) ∧
      creator.nonce ≠ UInt64.ofNat Count.max ∧
      (guarded .cache FrameResult.isOk
        (construct .silent run message (message.newAddress creator.nonce))).run
          { m with context := Context.admitted { m.context with world } message creator } =
        (.ok frame, m') := by
  unfold createFrame at h
  split at h
  · cases h
    cases hok
  obtain ⟨creator, m₁, hread, hrest⟩ := Program.run_bind_eq_ok h
  rcases hrun : (World.accountOrEmpty message.caller).run m.context.world with ⟨r, world⟩
  rw [onWorld_run hrun] at hread
  cases hread
  split at hrest
  · cases hrest
    cases hok
  split at hrest
  · cases hrest
    cases hok
  rename_i hmax
  exact ⟨creator, world, rfl, hmax, hrest⟩

omit [Ledger] in
/-- An account that is free once the nonce of the creator has been raised was so before. -/
lemma readAccount_of_free {c : Context} {creator : Account} {world : World}
    {record? : Option Account} (hw : c.world.RecallsAccounts) (href : c.world.Refreshed world)
    (hmax : creator.nonce ≠ UInt64.ofNat Count.max)
    (hread : (Context.admitted { c with world } message creator).world.readAccount a = .ok record?)
    (hfree : ∀ record ∈ record?, record.nonce = 0 ∧ record.hasCode = false) :
    c.world.readAccount a = .ok record? := by
  rw [Context.readAccount_admitted] at hread
  split at hread
  · -- This is the creator, which has a nonce by now.
    cases hread
    exact absurd (hfree _ rfl).1 (Context.succ_ne_zero_of_ne_max hmax)
  · have heq : world.readAccount a = c.world.readAccount a :=
      World.readAccount_eq href.continues hw (by rw [href.accounts.dirty])
    exact heq.symm.trans hread

/-! ## What they come to -/

/-- Everything that a creation does up to the end of its init code, whatever stands in its way. -/
def runInit (message : Message) : MachineM StateError Unit Outcome := do
  let creator ← onWorld (World.accountOrEmpty message.caller)
  onWorld (World.putAccount message.caller { creator with nonce := creator.nonce + 1 })
  let a := message.newAddress creator.nonce
  onJournal fun j => (j.access a).2
  modify opened
  runInitCode (execute .silent) message a

/-- What a creation has come to that has put a contract at the address. -/
structure Deploys (message : Message) (m m' : Machine Unit) (frame : FrameResult) (a : Address) :
    Prop where
  /-- The account was not there, or it had neither nonce nor code. -/
  free : m.context.world.RecallsAccounts →
    ∃ before?, World.answer (World.account a) m.context.world = .ok before? ∧
      ∀ before ∈ before?, before.nonce = 0 ∧ before.hasCode = false
  address : frame.address? = some a
  /-- The account is there, with the hash of the output. -/
  account : ∃ after, World.answer (World.account a) m'.context.world = .ok (some after) ∧
    after.codeHash = Crypto.Keccak.hash frame.outcome.output ∧
    (m.features.has .eip161 = true → after.nonce ≠ 0)
  /-- Under that hash there is the output. -/
  code : (World.answer (World.codeOfHash (Crypto.Keccak.hash frame.outcome.output))
    m'.context.world).map Code.bytes = .ok frame.outcome.output
  /-- The output keeps to the limits, and has been paid for on top of what the init code spent. -/
  deployable : ∃ o m₁, (runInit message).run (m.entered message) = (.ok o, m₁) ∧ o.isOk = true ∧
    Deployable m.features m.context.env.config.codeLimit o frame.outcome

lemma createFrame_deploys
    (hhash : frame.outcome.output ≠ #[] → Crypto.Keccak.hash frame.outcome.output ≠ 0 ∧
      Crypto.Keccak.hash frame.outcome.output ≠ emptyHash)
    (h : (createFrame .silent (execute .silent) message).run (m.entered message) =
      (.ok frame, m')) (hok : frame.isOk = true) :
    ∃ creator, World.answer (World.accountOrEmpty message.caller) m.context.world = .ok creator ∧
      Deploys message m m' frame (message.newAddress creator.nonce) := by
  obtain ⟨creator, world, hread, hmax, hguarded⟩ := createFrame_eq_ok h hok
  obtain ⟨m₁, hconstruct, hagrees⟩ :=
    kept_eq_ok (fun _ => keeps_construct execute_continues message _) hguarded hok
  obtain ⟨o, m₂, m₃, m₄, hbuilds⟩ := construct_eq_ok hconstruct hok
  obtain ⟨hframe, hinstalled⟩ := hbuilds.ends execute_continues hok
  have hholds := hinstalled.congr hagrees.world
  refine ⟨creator, congrArg Prod.fst hread, fun hw => ?_, ?_, ?_, ?_, o, m₄, ?_, hbuilds.isOk,
    hbuilds.deployable execute_continues execute_within hok⟩
  · obtain ⟨href, -⟩ := World.accountOrEmpty_ok hread
    obtain ⟨record?, hrecord, hfree⟩ := isTaken_eq_false hbuilds.free
    refine ⟨record?, ?_, hfree⟩
    rw [World.answer_account]
    exact readAccount_of_free (c := m.context) hw href hmax hrecord hfree
  · rw [hframe]
  · -- The record that holds the code is pending, and so is a record with a nonce: it is the same.
    obtain ⟨record, hdirty, hcode⟩ := hholds.account
    refine ⟨record, ?_, hcode.trans (Code.hash_ofBytes _), fun hrule => ?_⟩
    · rw [World.answer_account, World.readAccount_of_dirty hdirty]
    · obtain ⟨record', hdirty', hnonce⟩ := World.Numbered.congr
        (hbuilds.numbered execute_continues numbered_execute hrule) hagrees.world.accounts
      cases hdirty.symm.trans hdirty'
      exact hnonce
  · rw [World.answer_codeOfHash]
    exact hholds.readCode hhash
  · -- The steps up to the end of init code are those that the creation has taken.
    refine (Program.run_bind_ok (onWorld_run hread)).trans ?_
    refine (Program.run_bind_ok (onWorld_run (World.putAccount_run world _ _))).trans ?_
    refine (Program.run_bind_ok (Program.run_modify _ _)).trans ?_
    exact (Program.run_bind_ok (Program.run_modify _ _)).trans hbuilds.runInitCode_run

/-- A creation that succeeds has put a contract at the address that follows from the nonce of its
creator. The hash of its code is taken to be neither zero nor that of empty code, unless the code is
empty; and only what is said of the account before depends on what the clean layer may forget. -/
theorem execute_deploys (hto : message.to? = none)
    (hhash : frame.outcome.output ≠ #[] → Crypto.Keccak.hash frame.outcome.output ≠ 0 ∧
      Crypto.Keccak.hash frame.outcome.output ≠ emptyHash)
    (hrun : (execute .silent message).run m = (.ok frame, m')) (hok : frame.isOk = true) :
    ∃ creator, World.answer (World.accountOrEmpty message.caller) m.context.world = .ok creator ∧
      Deploys message m m' frame (message.newAddress creator.nonce) := by
  rw [execute_eq, executeWith_run] at hrun
  split at hrun <;> rename_i hframe
  · rename_i result m₁
    cases hrun
    rw [FrameResult.isOk_withSubstate] at hok
    rw [FrameResult.outcome_withSubstate] at hhash
    unfold Machine.frame at hframe
    rw [hto] at hframe
    obtain ⟨creator, hread, hdeploys⟩ := createFrame_deploys hhash hframe hok
    refine ⟨creator, hread, hdeploys.free, ?_, ?_, ?_, ?_⟩
    · rw [FrameResult.address?_withSubstate]
      exact hdeploys.address
    · rw [FrameResult.outcome_withSubstate]
      exact hdeploys.account
    · rw [FrameResult.outcome_withSubstate]
      exact hdeploys.code
    · rw [FrameResult.outcome_withSubstate]
      exact hdeploys.deployable
  · cases hrun

end

/-- A machine on which there is the account 1. -/
def endowed : Machine Unit :=
  let requests : List World.Request := [.putAccount 1 { balance := 1000000 }, .flush]
  start (.ofWorld {} (World.serveAll requests (.ofStore {} .ordered)).2) ()

/-- The account 1 creates a contract whose init code gives back one byte. -/
def planting : Message := .create 1 0 #[0x60, 0x5f, 0x5f, 0x53, 0x60, 0x01, 0x5f, 0xf3] 100000

/-- That byte is the code of the contract. -/
theorem execute_deploys_planting :
    ∃ frame m' creator, (execute .silent planting).run endowed = (.ok frame, m') ∧
      frame.outcome.output = #[0x5f] ∧
      World.answer (World.accountOrEmpty 1) endowed.context.world = .ok creator ∧
      Deploys planting endowed m' frame (planting.newAddress creator.nonce) ∧
      ∃ before?, World.answer (World.account (planting.newAddress creator.nonce))
          endowed.context.world = .ok before? ∧
        ∀ before ∈ before?, before.nonce = 0 ∧ before.hasCode = false := by
  have hrecalls : endowed.context.world.RecallsAccounts := fun _ => .inl rfl
  have hends : ((execute .silent planting).run endowed).1.toOption.map
      (fun frame => (frame.isOk, frame.outcome.output)) = some (true, #[0x5f]) := by
    decide +kernel
  have hhash : Crypto.Keccak.hash #[0x5f] ≠ 0 ∧ Crypto.Keccak.hash #[0x5f] ≠ emptyHash := by
    decide +kernel
  rcases hrun : (execute .silent planting).run endowed with ⟨r, m'⟩
  rw [hrun] at hends
  cases r with
  | error e => cases hends
  | ok frame =>
    obtain ⟨hok, houtput⟩ := Prod.mk.inj (Option.some.inj hends)
    obtain ⟨creator, hcreator, hdeploys⟩ :=
      execute_deploys rfl (fun _ => houtput ▸ hhash) hrun hok
    exact ⟨frame, m', creator, rfl, houtput, hcreator, hdeploys, hdeploys.free hrecalls⟩

/-- The account 1 creates a contract without code. -/
def vacant : Message := .create 1 0 #[] 100000

/-- A machine whose store has refused a batch: the clean layer, which has room for one account,
knows a nonce of the account that is to come about, but the store does not. -/
def distracted : Machine Unit :=
  let world := (World.serveAll [.putAccount 1 { balance := 1000000 }, .flush]
    (.ofStore {} (.recent 1))).2
  let refusing := { world with store := { world.store with faults := { batch := true } } }
  let refused :=
    (World.serveAll [.putAccount (vacant.newAddress 0) { nonce := 1 }, .flush] refusing).2
  start (.ofWorld {} { refused with store := { refused.store with faults := {} } }) ()

/-- A clean layer that forgets what the store has refused lets a contract come about where there was
an account with a nonce. -/
theorem not_free_distracted :
    ∃ creator before frame m',
      World.answer (World.accountOrEmpty 1) distracted.context.world = .ok creator ∧
      World.answer (World.account (vacant.newAddress creator.nonce)) distracted.context.world =
        .ok (some before) ∧
      before.nonce = 1 ∧ (execute .silent vacant).run distracted = (.ok frame, m') ∧
      frame.isOk = true ∧ frame.address? = some (vacant.newAddress creator.nonce) := by
  have hcreator : World.answer (World.accountOrEmpty 1) distracted.context.world =
      .ok { balance := 1000000 } := by decide +kernel
  have hbefore : World.answer (World.account (vacant.newAddress 0)) distracted.context.world =
      .ok (some { nonce := 1 }) := by decide +kernel
  have hends : ((execute .silent vacant).run distracted).1.toOption.map
      (fun frame => (frame.isOk, frame.address?)) = some (true, some (vacant.newAddress 0)) := by
    decide +kernel
  rcases hrun : (execute .silent vacant).run distracted with ⟨r, m'⟩
  rw [hrun] at hends
  cases r with
  | error e => cases hends
  | ok frame =>
    obtain ⟨hok, haddress⟩ := Prod.mk.inj (Option.some.inj hends)
    exact ⟨_, _, frame, m', hcreator, hbefore, rfl, rfl, hok, haddress⟩

end Machine

end Evm
