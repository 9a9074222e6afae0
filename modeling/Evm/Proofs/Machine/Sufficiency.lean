import Evm.Proofs.Execution.StackEffect
import Evm.Proofs.Machine.Stages

/-!
# The checks of a transaction are enough

A transaction that passes its checks is not refused by the machine afterwards. What its sender pays
is exact, no bound of words or counts taking effect (`Settlement.Exact`). Once it has paid, the
sender still holds the value that it sends, and its nonce can go up, so the outermost frame gets past
the checks of its own (`Context.Affords`). From there on a frame ends as its code does, or as a
creation does whose code cannot be deployed, and code does not end as if it had been refused
(`Host.steps_status`).
-/

namespace Evm

/-! ## Ways to end -/

namespace Status

/-- How a message ends that is refused before anything runs. -/
def refusals : List Status := [outOfFunds, callTooDeep, nonceOverflow]

/-- What instructions make of a status: they leave it, or they end the frame by a fault or on
purpose. -/
def Becomes (s s' : Status) : Prop := s' = s ∨ s'.isFault = true ∨ s'.isDeliberate = true

lemma Becomes.trans {s s' s'' : Status} (h : s.Becomes s') (h' : s'.Becomes s'') :
    s.Becomes s'' := by
  rcases h' with rfl | hends
  · exact h
  · exact .inr hends

/-- A frame that has run does not end as if it had been refused. -/
lemma Becomes.not_mem_refusals {s : Status} (h : running.Becomes s) : s ∉ refusals := by
  revert h
  unfold Becomes
  cases s <;> decide

end Status

namespace Host

variable {σ : Type} {host : Host σ}

lemma perform_next_status (f : Frame) (s : σ) :
    f.status.Becomes ((Exec.next host).perform (f, s)).1.status := by
  unfold Exec.perform
  rcases hrun : (Exec.next host).run (f, s) with ⟨status | _, y⟩
  · exact .inr (Exec.next_error hrun)
  · exact .inl (Exec.next_ok hrun)

/-- A run leaves the status of a frame, or it ends the frame by a fault or on purpose. -/
lemma steps_status (h : host.Silent) (fuel : Nat) (f : Frame) (s : σ) :
    f.status.Becomes (host.steps fuel f s).1.status := by
  induction fuel generalizing f s with
  | zero => exact .inl rfl
  | succ fuel ih =>
    unfold steps
    split
    · rename_i hrunning
      rw [h.step_eq, if_pos hrunning]
      exact (perform_next_status f s).trans (ih _ _)
    · exact .inl rfl

end Host

lemma Frame.outcome_status (f : Frame) : f.outcome.status = f.status := by
  unfold outcome
  split
  · rfl
  · rfl

/-! ## Frames that are not refused -/

namespace Machine

variable {ι : Type}

/-- The outcome is not that of a message that was refused. -/
def Unrefused (o : Outcome) : Prop := o.status ∉ Status.refusals

section

variable {gasLimit : Nat} {o : Outcome}

lemma unrefused_precompileOutcome (result : Except Precompile.Error Precompile.Output) :
    Unrefused (precompileOutcome gasLimit result) := by
  unfold precompileOutcome
  split
  · unfold Unrefused Outcome.halt
    dsimp only
    split
    · exact nofun
    · exact nofun
  · split
    · exact nofun
    · exact nofun

lemma unrefused_deployment (features : Features) (codeLimit : Nat) (o : Outcome) :
    Unrefused (deployment features codeLimit o) := by
  unfold deployment
  split
  · exact nofun
  · split
    · exact nofun
    · split
      · exact nofun
      · split
        · exact nofun
        · exact nofun

lemma gives_unrefused (h : Unrefused o) :
    Gives (Unrefused ·.outcome) (pure { outcome := o } : MachineM StateError ι FrameResult) :=
  .pure h

end

variable [Ledger] {run : Message → MachineM StateError Unit FrameResult}

lemma unrefused_runFrame (invocation : Invocation) (gasLimit : Nat) :
    Gives Unrefused (runFrame .silent run (Frame.start invocation gasLimit)) := by
  intro m m' o h
  have hstatus := Host.steps_status (host_silent run)
    ((Frame.start invocation gasLimit).gas.remaining + 1) (Frame.start invocation gasLimit) m
  rw [runFrame_run] at h
  change Status.Becomes _ ((host .silent run).run _ m).1.status at hstatus
  rcases hy : (host .silent run).run (Frame.start invocation gasLimit) m with ⟨f', m₁⟩
  rw [hy] at h hstatus
  dsimp only at h
  split at h
  · cases h
  · cases h
    unfold Unrefused
    rw [f'.outcome_status]
    exact hstatus.not_mem_refusals

lemma unrefused_runCalled (message : Message) (target : Address) :
    Gives (Unrefused ·.outcome) (runCalled .silent run message target) := by
  refine .bind _ fun _ => ?_
  dsimp only
  split
  · refine .bind _ fun _ => ?_
    dsimp only
    split
    · exact .bind _ fun _ => gives_unrefused (unrefused_precompileOutcome _)
    · exact gives_unrefused (unrefused_precompileOutcome _)
  · refine .bind _ fun _ => .ite (gives_unrefused (o := .idle .stop _) nofun) ?_
    exact (unrefused_runFrame _ _).after fun o ho => gives_unrefused ho

lemma unrefused_callBody (message : Message) (target : Address) :
    Gives (Unrefused ·.outcome) (callBody .silent run message target) :=
  .ite (.bind _ fun _ => unrefused_runCalled _ _) (unrefused_runCalled _ _)

omit [Ledger] in
lemma unrefused_deploy (a : Address) (o : Outcome) :
    Gives (Unrefused ·.outcome) (deploy a o : MachineM StateError Unit FrameResult) :=
  .bind _ fun m =>
    have hends := unrefused_deployment m.features m.context.env.config.codeLimit o
    .ite (.bind _ fun _ => .pure hends) (gives_unrefused hends)

lemma unrefused_construct (message : Message) (a : Address) :
    Gives (Unrefused ·.outcome) (construct .silent run message a) :=
  .bind _ fun _ => .ite
    (.bind _ fun _ => gives_unrefused (o := .halt .createCollision _) nofun) <| .bind _ fun _ =>
    .bind _ fun _ => (unrefused_runFrame _ _).after fun _ ho =>
      .ite (unrefused_deploy a _) (gives_unrefused ho)

/-! ## What gets a frame past its checks -/

end Machine

/-- A read of an account gives what the same read gives afterwards, whatever the clean layer may
forget. -/
lemma World.accountOrEmpty_again {w : World} {a : Address} {record : Account}
    (h : w.Reads a record) :
    ∃ w', (accountOrEmpty a).run w = (.ok record, w') ∧ w'.Reads a record := by
  obtain ⟨l, hrun, -, hclean⟩ := Table.load_map_run Table.steady_accounts w a (·.getD {})
  have hread : (Table.accounts.setClean w l).readAccount a = w.readAccount a := by
    change ((w.accounts.dirty[a]?).elim (Table.accounts.readClean (Table.accounts.setClean w l) a)
      .ok) = _
    rw [hclean]
    rfl
  refine ⟨Table.accounts.setClean w l, ?_, h.congr hread⟩
  rw [← h.map_getD]
  exact hrun

lemma World.answer_accountOrEmpty {w : World} {a : Address} {record : Account} :
    answer (accountOrEmpty a) w = .ok record ↔ w.Reads a record := by
  constructor
  · intro h
    exact (accountOrEmpty_ok (Prod.ext h rfl)).2
  · intro h
    obtain ⟨w', hrun, -⟩ := accountOrEmpty_again h
    rw [answer, hrun]

/-- The sender of the message holds the value that is sent, and to create a contract it can raise its
nonce. The message is within the depth limit. -/
structure Context.Affords (c : Context) (message : Message) : Prop where
  depth : message.depth ≤ callDepthLimit
  sender : ∃ record, c.world.Reads message.caller record ∧ message.value ≤ record.balance ∧
    (message.to? = none → record.nonce ≠ UInt64.ofNat Count.max)

namespace Machine

variable {ι : Type} {message : Message}

lemma onWorld_accountOrEmpty {a : Address} {record : Account} {m : Machine ι}
    (h : m.context.world.Reads a record) :
    ∃ m', (onWorld (World.accountOrEmpty a)).run m = (.ok record, m') := by
  obtain ⟨w', hrun, -⟩ := World.accountOrEmpty_again h
  exact ⟨_, onWorld_run hrun⟩

variable [Ledger] {run : Message → MachineM StateError Unit FrameResult} {m m' : Machine Unit}
  {frame : FrameResult}

lemma unrefused_callFrame {target : Address} (hm : m.context.Affords message)
    (h : (callFrame .silent run message target).run m = (.ok frame, m')) :
    Unrefused frame.outcome := by
  obtain ⟨record, hread, hvalue, -⟩ := hm.sender
  have hlacks : ∃ m₁, (lacksFunds message).run m = (.ok false, m₁) := by
    unfold lacksFunds
    split
    · obtain ⟨m₁, hrun⟩ := onWorld_accountOrEmpty hread
      rw [Program.run_bind_ok hrun]
      have hle : decide (record.balance < message.value) = false :=
        decide_eq_false (BitVec.not_lt.2 hvalue)
      rw [hle]
      exact ⟨m₁, rfl⟩
    · exact ⟨m, rfl⟩
  obtain ⟨m₁, hlacks⟩ := hlacks
  unfold callFrame at h
  rw [if_neg (Nat.not_lt.2 hm.depth), Program.run_bind_ok hlacks] at h
  exact gives_guarded (unrefused_callBody _ _) _ _ _ h

lemma unrefused_createFrame (hto : message.to? = none) (hm : m.context.Affords message)
    (h : (createFrame .silent run message).run m = (.ok frame, m')) :
    Unrefused frame.outcome := by
  obtain ⟨record, hread, hvalue, hnonce⟩ := hm.sender
  have hcreator : m.context.creator? message = some record :=
    Context.creator?_of_read hto hread.map_getD ⟨hm.depth, hvalue, hnonce hto⟩
  have hframe := createFrame_run run hto m
  rw [hcreator] at hframe
  obtain ⟨world, -, hrun⟩ := hframe
  rw [hrun] at h
  exact gives_guarded (unrefused_construct _ _) _ _ _ h

/-- A message that its sender affords is not refused. -/
lemma unrefused_executeWith (hm : m.context.Affords message)
    (h : (executeWith .silent run message).run m = (.ok frame, m')) :
    Unrefused frame.outcome := by
  rw [executeWith_run] at h
  split at h <;> rename_i hframe
  · rename_i result m₁
    have hresult : Unrefused result.outcome := by
      unfold Machine.frame at hframe
      split at hframe
      · exact unrefused_callFrame (m := m.entered message) ⟨hm.depth, hm.sender⟩ hframe
      · rename_i hto
        exact unrefused_createFrame (m := m.entered message) hto ⟨hm.depth, hm.sender⟩ hframe
    cases h
    unfold FrameResult.withSubstate
    split
    · exact hresult
    · exact hresult
  · cases h

theorem unrefused_execute (hm : m.context.Affords message)
    (h : (execute .silent message).run m = (.ok frame, m')) : Unrefused frame.outcome := by
  unfold execute at h
  cases hlevels : callDepthLimit + 1 - message.depth with
  | zero =>
    rw [hlevels] at h
    exact unrefused_executeWith hm h
  | succ levels =>
    rw [hlevels] at h
    exact unrefused_executeWith hm h

end Machine

/-! ## What the sender pays -/

namespace Settlement

variable {env : Env} {sender : Account}

/-- Every amount that is worked out when the sender pays is exact: no product or sum stops at the
largest word, no difference at zero, and no nonce at the largest count. -/
structure Exact (env : Env) (sender : Account) : Prop where
  /-- The highest fee that the transaction offers. -/
  offer : (Word.satMul (BitVec.ofNat 256 env.transaction.gasLimit) env.transaction.gasPrice).toNat =
    env.transaction.gasLimit * env.transaction.gasPrice.toNat
  required : (requiredFunds env.transaction).toNat =
    env.transaction.gasLimit * env.transaction.gasPrice.toNat + env.transaction.value.toNat
  cost : (gasCost env).toNat = env.transaction.gasLimit * env.gasPrice.toNat
  rest : (Word.satSub (funds env sender) (gasCost env)).toNat + (gasCost env).toNat =
    (funds env sender).toNat
  nonce : (nextNonce sender.nonce).toNat = sender.nonce.toNat + 1

/-- What the sender pays is exact if it has passed its checks. -/
lemma exact_of_checkSender (h : env.checkSender sender = .ok ()) : Exact env sender := by
  obtain ⟨-, hmax, hlt, -⟩ := env.checkSender_eq_ok h
  have hoffer : env.transaction.gasLimit * env.transaction.gasPrice.toNat < 2 ^ 256 :=
    (Nat.le_add_right _ _).trans_lt hlt
  -- The price that is paid is at most the one that the sender was checked for.
  have hprice : env.transaction.gasLimit * env.gasPrice.toNat ≤
      env.transaction.gasLimit * env.transaction.gasPrice.toNat :=
    Nat.mul_le_mul_left _ env.gasPrice_le
  have hcost : (gasCost env).toNat = env.transaction.gasLimit * env.gasPrice.toNat :=
    Word.toNat_satMul_ofNat (hprice.trans_lt hoffer)
  refine ⟨Word.toNat_satMul_ofNat hoffer, toNat_requiredFunds hlt, hcost, ?_, ?_⟩
  · have hfunds := requiredFunds_le h
    have hle : (gasCost env).toNat ≤ (funds env sender).toNat := by omega
    have hrest : (funds env sender).toNat - (gasCost env).toNat < 2 ^ 256 :=
      (Nat.sub_le _ _).trans_lt (BitVec.isLt _)
    rw [Word.satSub, BitVec.toNat_ofNat, Nat.mod_eq_of_lt hrest, Nat.sub_add_cancel hle]
  · rw [nextNonce, if_neg hmax]
    exact Context.toNat_succ_of_ne_max hmax

/-- The record of the sender once it has paid. -/
def charged (env : Env) (sender : Account) : Account :=
  { sender with
    balance := Word.satSub (funds env sender) (gasCost env)
    nonce := chargedNonce env sender }

end Settlement

namespace Context

variable {c c' : Context} {sender : Account}

/-- The sender can always pay. -/
lemma chargeSender_run (hread : c.world.Reads c.env.transaction.caller sender) :
    ∃ c', Settlement.chargeSender.run c = (.ok (), c') ∧
      c'.world.Reads c.env.transaction.caller (Settlement.charged c.env sender) := by
  obtain ⟨world, hrun, -⟩ := World.accountOrEmpty_again hread
  unfold Settlement.chargeSender
  rw [Program.run_bind_ok (Program.run_get c), Program.run_bind_ok (onWorld_run hrun)]
  exact ⟨_, rfl, .withAccount_self world _ _⟩

/-- Once it has paid, the sender affords the message of the transaction. -/
lemma affords_charged {tx : Transaction} (htx : c.env.transaction = tx)
    (hcheck : c.env.checkSender sender = .ok ())
    (hread : c'.world.Reads tx.caller (Settlement.charged c.env sender)) (gasLimit : Nat) :
    c'.Affords (.ofTransaction tx gasLimit) := by
  subst htx
  obtain ⟨-, hmax, -⟩ := c.env.checkSender_eq_ok hcheck
  have hvalue : c.env.transaction.value ≤ (Settlement.charged c.env sender).balance :=
    BitVec.le_def.2 (Settlement.value_le hcheck)
  unfold Message.ofTransaction
  cases hto : c.env.transaction.to? with
  | some callee => exact ⟨Nat.zero_le _, _, hread, hvalue, nofun⟩
  | none =>
    have hcreate : c.env.transaction.isCreate = true := by
      rw [Transaction.isCreate, hto]
      rfl
    -- A creation leaves it to its frame to raise the nonce.
    have hnonce : (Settlement.charged c.env sender).nonce = sender.nonce := by
      rw [Settlement.charged, Settlement.chargedNonce, if_pos hcreate]
    exact ⟨Nat.zero_le _, _, hread, hvalue, fun _ => hnonce ▸ hmax⟩

end Context

namespace Machine

variable {m m' : Machine Unit} {sender : Account} {intrinsicGas : Nat} {frame : FrameResult}

/-- The message of a transaction is not refused once a sender that has passed its checks has paid. -/
lemma unrefused_charged {c c' : Context} {gasLimit : Nat}
    (hread : c.world.Reads c.env.transaction.caller sender)
    (hcheck : c.env.checkSender sender = .ok ())
    (hcharge : Settlement.chargeSender.run c = (.ok (), c'))
    (h : (execute .silent (.ofTransaction c.env.transaction gasLimit)).run
      { m with context := c' } = (.ok frame, m')) : Unrefused frame.outcome := by
  obtain ⟨c₁, hrun, hread'⟩ := Context.chargeSender_run hread
  obtain rfl : c₁ = c' := congrArg Prod.snd (hrun.symm.trans hcharge)
  exact unrefused_execute (m := { m with context := c₁ })
    (Context.affords_charged rfl hcheck hread' gasLimit) h

/-- The outermost frame of a transaction is not refused. -/
lemma unrefused_settle {gas : Gas.Meter} {cleaned : List Address}
    (h : (settle .silent intrinsicGas).run m = (.ok (frame, gas, cleaned), m')) :
    Unrefused frame.outcome := by
  unfold settle at h
  rw [Program.run_bind_ok (Program.run_get m)] at h
  obtain ⟨sender, c₁, hsender, h⟩ := stage_eq_ok h
  obtain ⟨world, hrun, rfl⟩ := Context.onWorld_eq_ok hsender
  obtain ⟨world', hrun', hread⟩ := World.accountOrEmpty_again (World.accountOrEmpty_ok hrun).2
  obtain rfl : world' = world := congrArg Prod.snd (hrun'.symm.trans hrun)
  obtain ⟨⟨⟩, m₁, hcheck, h⟩ := Program.run_bind_eq_ok h
  obtain ⟨hpassed, rfl⟩ := require_eq_ok hcheck
  obtain ⟨⟨⟩, m₁, hwarmUp, h⟩ := Program.run_bind_eq_ok h
  let journal := Settlement.warmUp m.context.env
    ((Precompile.active m.context.env.features).map Precompile.address) m.context.journal
  obtain rfl : m₁ = { m with context := { m.context with world := world', journal } } :=
    (congrArg Prod.snd hwarmUp).symm
  -- What is checked is what the sender pays from, since nothing is read in between.
  obtain ⟨⟨⟩, c₂, hcharge, h⟩ := stage_eq_ok h
  obtain ⟨frame', m₂, hexecute, h⟩ := Program.run_bind_eq_ok h
  have hunrefused : Unrefused frame'.outcome :=
    unrefused_charged (c := { m.context with world := world', journal }) hread hpassed hcharge
      (onState_eq_ok hexecute)
  obtain ⟨⟨⟩, c₄, -, h⟩ := stage_eq_ok h
  obtain ⟨⟨⟩, c₅, -, h⟩ := stage_eq_ok h
  obtain ⟨⟨⟩, c₆, -, h⟩ := stage_eq_ok h
  obtain ⟨cleaned', c₇, -, h⟩ := stage_eq_ok h
  cases h
  exact hunrefused

/-- A transaction that passes its checks is not refused afterwards, whatever of nonce, balance and
base fee is left unchecked. What its sender pays is exact, the intrinsic gas is within the gas limit,
and once it has paid, which never fails, the sender holds the value that it sends. The message then
runs in a frame that does not end for want of funds, by the depth limit or by the largest nonce; no
frame of a settled transaction does. -/
theorem checks_suffice (hintrinsic : m.context.env.checkIntrinsicGas = .ok intrinsicGas)
    (hsender : World.answer (World.accountOrEmpty m.context.env.transaction.caller)
      m.context.world = .ok sender)
    (hcheck : m.context.env.checkSender sender = .ok ()) :
    let tx := m.context.env.transaction
    Settlement.Exact m.context.env sender ∧ intrinsicGas ≤ tx.gasLimit ∧
      (∃ c, Settlement.chargeSender.run m.context = (.ok (), c) ∧
        (∃ record, World.answer (World.accountOrEmpty tx.caller) c.world = .ok record ∧
          tx.value ≤ record.balance) ∧
        ∀ frame m', (execute .silent (.ofTransaction tx (tx.gasLimit - intrinsicGas))).run
          { m with context := c } = (.ok frame, m') →
            frame.outcome.status ∉ [Status.outOfFunds, .callTooDeep, .nonceOverflow]) ∧
      ∀ frame gas cleaned m',
        (settle .silent intrinsicGas).run m = (.ok (frame, gas, cleaned), m') →
          frame.outcome.status ∉ [Status.outOfFunds, .callTooDeep, .nonceOverflow] := by
  intro tx
  have hread := World.answer_accountOrEmpty.1 hsender
  obtain ⟨c, hcharge, hpaid⟩ := Context.chargeSender_run hread
  have hfits : intrinsicGas ≤ tx.gasLimit := by
    unfold Env.checkIntrinsicGas at hintrinsic
    split at hintrinsic
    · cases hintrinsic
    · rename_i hle
      cases hintrinsic
      exact Nat.not_lt.1 hle
  refine ⟨Settlement.exact_of_checkSender hcheck, hfits,
    ⟨c, hcharge, ⟨_, World.answer_accountOrEmpty.2 hpaid, ?_⟩, ?_⟩, ?_⟩
  · exact BitVec.le_def.2 (Settlement.value_le hcheck)
  · intro frame m' h
    exact unrefused_charged hread hcheck hcharge h
  · intro frame gas cleaned m' h
    exact unrefused_settle h

/-- A machine that checks neither nonces nor funds, with a transaction of the account 1, which holds
nothing and has the largest nonce but one. It creates a contract and offers a priority fee. -/
def unfunded : Machine Unit :=
  let requests : List World.Request := [.putAccount 1 { nonce := 0xfffffffffffffffe }]
  let env : Env :=
    { config := { skipNonceCheck := true, skipBalanceCheck := true }
      block := { baseFee := 7 }
      transaction := { caller := 1, to? := none, value := 5, gasLimit := 60000, gasPrice := 10
                       priorityFee? := some 1 } }
  start (.ofWorld env (World.serveAll requests (.ofStore {} .ordered)).2) ()

/-- The sender is supplied with the most that the transaction can cost, pays less and sends the value
from the rest. -/
theorem checks_suffice_unfunded :
    ∃ sender, unfunded.context.env.checkIntrinsicGas = .ok 53000 ∧
      World.answer (World.accountOrEmpty 1) unfunded.context.world = .ok sender ∧
      unfunded.context.env.checkSender sender = .ok () ∧
      (Settlement.requiredFunds unfunded.context.env.transaction).toNat = 60000 * 10 + 5 ∧
      (Settlement.gasCost unfunded.context.env).toNat = 60000 * 8 ∧
      ∃ frame gas cleaned m',
        (settle .silent 53000).run unfunded = (.ok (frame, gas, cleaned), m') ∧
        frame.outcome.status ∉ [Status.outOfFunds, .callTooDeep, .nonceOverflow] := by
  have hintrinsic : unfunded.context.env.checkIntrinsicGas = .ok 53000 := by decide +kernel
  have hsender : World.answer (World.accountOrEmpty 1) unfunded.context.world =
      .ok { nonce := 0xfffffffffffffffe } := by decide +kernel
  have hcheck : unfunded.context.env.checkSender { nonce := 0xfffffffffffffffe } = .ok () := by
    decide +kernel
  obtain ⟨hexact, -, -, hsettled⟩ := checks_suffice (m := unfunded) hintrinsic hsender hcheck
  have hok : ((settle .silent 53000).run unfunded).1.toOption.isSome = true := by decide +kernel
  rcases hrun : (settle .silent 53000).run unfunded with ⟨r, m'⟩
  rw [hrun] at hok
  cases r with
  | error e => cases hok
  | ok settled =>
    obtain ⟨frame, gas, cleaned⟩ := settled
    exact ⟨_, hintrinsic, hsender, hcheck, hexact.required, hexact.cost, frame, gas, cleaned, m',
      rfl, hsettled frame gas cleaned m' hrun⟩

end Machine

end Evm
