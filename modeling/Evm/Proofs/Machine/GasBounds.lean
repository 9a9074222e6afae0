import Evm.Proofs.Machine.Meters

/-!
# Gas of transactions

What a transaction used is within its limit and, with the refund, covers the intrinsic gas; the
refund is a bounded part of both (`Machine.transact_gasBounds`). The settlement never takes more than
there is, because the frame of the transaction gives back no more than it got, which is what the
intrinsic gas has left.
-/

namespace Evm

/-! ## Settled gas -/

namespace Gas.Meter

variable (features : Features) (gasLimit : Nat) (o : Outcome)

@[simp] lemma limit_ofTransaction : (ofTransaction features gasLimit o).limit = gasLimit := by
  unfold ofTransaction
  dsimp only
  cases o.status.isError <;> cases o.status.isOk <;> rfl

@[simp] lemma remaining_ofTransaction : (ofTransaction features gasLimit o).remaining =
    if o.status.isError then 0 else o.gas.remaining := by
  unfold ofTransaction
  dsimp only
  cases o.status.isError <;> cases o.status.isOk <;> first | rfl | exact Nat.zero_add _

/-- The share of the spent gas that is refunded at most. -/
def refundShare (features : Features) : Nat := if features.has .eip3529 then 5 else 2

lemma refunded_capRefund_le (m : Meter) :
    (m.capRefund (features.has .eip3529)).refunded.toNat ≤
      (m.capRefund (features.has .eip3529)).spent / refundShare features :=
  Nat.min_le_right _ _

lemma refunded_ofTransaction_le : (ofTransaction features gasLimit o).refunded.toNat ≤
    (ofTransaction features gasLimit o).spent / refundShare features :=
  refunded_capRefund_le features _

/-- Nothing is refunded unless the frame succeeded. -/
lemma refunded_ofTransaction {o : Outcome} (h : o.status.isOk = false) :
    (ofTransaction features gasLimit o).refunded = 0 := by
  have hcap (m : Meter) (hm : m.refunded = 0) (reduced : Bool) :
      (m.capRefund reduced).refunded = 0 := by
    unfold capRefund
    rw [hm]
    exact congrArg Int.ofNat (Nat.zero_min _)
  unfold ofTransaction
  rw [h]
  apply hcap
  cases o.status.isError <;> rfl

/-- The refund is taken from what was spent. -/
lemma used_add_refunded : (ofTransaction features gasLimit o).used +
    (ofTransaction features gasLimit o).refunded.toNat = (ofTransaction features gasLimit o).spent :=
  Nat.sub_add_cancel ((refunded_ofTransaction_le features gasLimit o).trans (Nat.div_le_self _ _))

end Gas.Meter

/-- A halt is no success. -/
lemma Status.isOk_of_isError {s : Status} (h : s.isError = true) : s.isOk = false := by
  unfold isError at h
  rw [Bool.and_eq_true, Bool.not_eq_true'] at h
  exact h.1

namespace ExecutionResult

/-- The gas that was paid back for the refund counter, none unless the transaction succeeded. -/
def gasRefunded : ExecutionResult → Nat
  | success _ _ gasRefunded _ _ => gasRefunded
  | _ => 0

lemma isSome_ofStatus? (status : Status) :
    (SuccessReason.ofStatus? status).isSome = status.isOk := by
  cases status <;> rfl

lemma gasRefunded_ofFrame (r : FrameResult) (gas : Gas.Meter) (isCreate : Bool)
    (h : r.outcome.status.isOk = false → gas.refunded = 0) :
    (ofFrame r gas isCreate).gasRefunded = gas.refunded.toNat := by
  have hsome := isSome_ofStatus? r.outcome.status
  unfold ofFrame
  dsimp only
  cases hreason : SuccessReason.ofStatus? r.outcome.status with
  | some reason => rfl
  | none =>
    rw [hreason] at hsome
    rw [h hsome.symm]
    dsimp only
    split <;> rfl

lemma isHalt_ofFrame (r : FrameResult) (gas : Gas.Meter) (isCreate : Bool) :
    (ofFrame r gas isCreate).isHalt = r.outcome.status.isError := by
  have hsome := isSome_ofStatus? r.outcome.status
  unfold ofFrame Status.isError
  dsimp only
  rw [← hsome]
  cases SuccessReason.ofStatus? r.outcome.status with
  | some reason => rfl
  | none => cases r.outcome.status.isRevert <;> rfl

end ExecutionResult

/-- What bounds the gas of a transaction, settled on a meter. -/
structure GasBounds (env : Env) (meter : Gas.Meter) (result : ExecutionResult) : Prop where
  limit : meter.limit = env.transaction.gasLimit
  remaining : meter.remaining ≤ meter.limit
  refunded : meter.refunded.toNat ≤ meter.spent
  /-- Both differences are of a smaller from a larger number. -/
  gasUsed : result.gasUsed = meter.limit - meter.remaining - meter.refunded.toNat
  gasRefunded : result.gasRefunded = meter.refunded.toNat
  within : result.gasUsed ≤ env.transaction.gasLimit
  halted : result.isHalt = true → result.gasUsed = env.transaction.gasLimit
  covers : result.isHalt = false → env.intrinsicGas ≤ result.gasUsed + result.gasRefunded
  share : result.gasRefunded ≤
    (result.gasUsed + result.gasRefunded) / if env.features.has .eip3529 then 5 else 2

/-- The bounds hold if the frame of the transaction got what the intrinsic gas has left. -/
lemma gasBounds_ofFrame {env : Env} (hintrinsic : env.intrinsicGas ≤ env.transaction.gasLimit)
    {frame : FrameResult}
    (hle : frame.outcome.gas.remaining ≤ env.transaction.gasLimit - env.intrinsicGas) :
    GasBounds env (.ofTransaction env.features env.transaction.gasLimit frame.outcome)
      (.ofFrame frame (.ofTransaction env.features env.transaction.gasLimit frame.outcome)
        env.transaction.isCreate) := by
  have hshare := Gas.Meter.refunded_ofTransaction_le env.features env.transaction.gasLimit
    frame.outcome
  have hsum := Gas.Meter.used_add_refunded env.features env.transaction.gasLimit frame.outcome
  have hlimit := Gas.Meter.limit_ofTransaction env.features env.transaction.gasLimit frame.outcome
  have hremaining :=
    Gas.Meter.remaining_ofTransaction env.features env.transaction.gasLimit frame.outcome
  have hnone := Gas.Meter.refunded_ofTransaction env.features env.transaction.gasLimit
    (o := frame.outcome)
  generalize Gas.Meter.ofTransaction env.features env.transaction.gasLimit frame.outcome = meter at *
  have hspent : meter.spent = env.transaction.gasLimit - meter.remaining :=
    congrArg (· - meter.remaining) hlimit
  have hleft : meter.remaining ≤ env.transaction.gasLimit - env.intrinsicGas := by
    rw [hremaining]
    split
    · exact Nat.zero_le _
    · exact hle
  have hused := Machine.gasUsed_ofFrame frame meter env.transaction.isCreate
  have hrefunded :=
    ExecutionResult.gasRefunded_ofFrame frame meter env.transaction.isCreate hnone
  have hhalt := ExecutionResult.isHalt_ofFrame frame meter env.transaction.isCreate
  constructor
  case limit => exact hlimit
  case remaining => omega
  case refunded => omega
  case gasUsed => exact hused
  case gasRefunded => exact hrefunded
  case within => omega
  case halted =>
    intro hresult
    have herror : frame.outcome.status.isError = true := hhalt.symm.trans hresult
    -- A halt leaves nothing and earns no refund, so that all of the limit is used.
    rw [herror, if_pos rfl] at hremaining
    rw [hnone (Status.isOk_of_isError herror)] at hsum
    rw [hused]
    change meter.used + 0 = meter.spent at hsum
    omega
  case covers => omega
  case share =>
    rw [hused, hrefunded, hsum]
    exact hshare

namespace Machine

section

variable {ι ε α : Type}

lemma onState_eq_ok {op : MachineM StateError ι α} {a : α} {m m' : Machine ι}
    (h : (onState op).run m = (.ok a, m')) : op.run m = (.ok a, m') := by
  rcases hop : op.run m with ⟨e | b, m₁⟩ <;> rw [onState_run hop] at h <;> cases h
  rfl

lemma gives_onState {P : α → Prop} {op : MachineM StateError ι α} (h : Gives P op) :
    Gives P (onState op) :=
  fun m m' a hrun => h m m' a (onState_eq_ok hrun)

lemma require_eq_ok {check : Except InvalidTransaction α} {a : α} {m m' : Machine ι}
    (h : (require check).run m = (.ok a, m')) : check = .ok a ∧ m' = m := by
  cases check with
  | error e => cases h
  | ok b =>
    cases h
    exact ⟨rfl, rfl⟩

variable [Ledger] {m m' : Machine Unit} {tx : Transaction} {receipt : Receipt}

/-- The gas of a transaction is settled on what its frame has left of the gas that is not
intrinsic. -/
lemma settle_ok {intrinsicGas : Nat} {settled : FrameResult × Gas.Meter × List Address}
    (h : (settle .silent intrinsicGas).run m = (.ok settled, m')) :
    settled.2.1 = .ofTransaction m.features m.context.env.transaction.gasLimit settled.1.outcome ∧
      settled.1.outcome.gas.remaining ≤
        m.context.env.transaction.gasLimit - intrinsicGas := by
  let Settles (settled : FrameResult × Gas.Meter × List Address) : Prop :=
    settled.2.1 = .ofTransaction m.features m.context.env.transaction.gasLimit settled.1.outcome ∧
      settled.1.outcome.gas.remaining ≤ m.context.env.transaction.gasLimit - intrinsicGas
  have hframe (frame : FrameResult)
      (hle : GasWithin (m.context.env.transaction.gasLimit - intrinsicGas) frame)
      (cleaned : List Address) : Settles (frame, .ofTransaction m.features
        m.context.env.transaction.gasLimit frame.outcome, cleaned) := ⟨rfl, hle⟩
  unfold settle at h
  rw [Program.run_bind_ok (Program.run_get _)] at h
  dsimp only at h
  refine Gives.bind (P := Settles) _ (fun _ => ?_) _ _ _ h
  refine .bind _ fun _ => .bind _ fun _ => .bind _ fun _ => ?_
  refine .after (gives_onState (execute_within _)) fun frame hle => ?_
  rw [gasLimit_ofTransaction] at hle
  exact .bind _ fun _ => .bind _ fun _ => .bind _ fun _ => .bind _ fun cleaned =>
    .pure (hframe frame hle cleaned)

/-- The result of a transaction is that of a frame that got what the intrinsic gas has left. -/
lemma runTransaction_settles (h : (runTransaction .silent).run m = (.ok receipt, m')) :
    m.context.env.intrinsicGas ≤ m.context.env.transaction.gasLimit ∧ ∃ frame : FrameResult,
      receipt.result = .ofFrame frame (.ofTransaction m.features
        m.context.env.transaction.gasLimit frame.outcome) m.context.env.transaction.isCreate ∧
      frame.outcome.gas.remaining ≤
        m.context.env.transaction.gasLimit - m.context.env.intrinsicGas := by
  unfold runTransaction at h
  rw [Program.run_bind_ok (Program.run_get _)] at h
  obtain ⟨_, m₁, hblock, hrest⟩ := Program.run_bind_eq_ok h
  obtain ⟨-, rfl⟩ := require_eq_ok hblock
  obtain ⟨intrinsicGas, m₂, hintrinsic, hguard⟩ := Program.run_bind_eq_ok hrest
  obtain ⟨hcheck, rfl⟩ := require_eq_ok hintrinsic
  obtain ⟨⟨frame, gas, cleaned⟩, m₃, hguarded, hwrite⟩ := Program.run_bind_eq_ok hguard
  obtain ⟨changes, m₄, -, hreport⟩ := Program.run_bind_eq_ok hwrite
  obtain ⟨m₅, hsettle⟩ := guarded_eq_ok hguarded
  obtain ⟨hgas, hle⟩ := settle_ok hsettle
  dsimp only at hgas hle
  subst hgas
  unfold Env.checkIntrinsicGas at hcheck
  split at hcheck
  · cases hcheck
  · rename_i hfits
    cases hcheck
    cases hreport
    exact ⟨Nat.le_of_not_lt hfits, frame, rfl, hle⟩

/-- The gas of a transaction is settled within its limit and above its intrinsic gas, and no frame
that it runs has ever more gas left than it got. -/
theorem transact_gasBounds (hrun : (transact .silent tx).run m = (.ok receipt, m')) :
    (∃ meter, GasBounds { m.context.env with transaction := tx } meter receipt.result) ∧
      ∃ meters, (transact .meters tx).run (m.observedBy []) = (.ok receipt, m'.observedBy meters) ∧
        ∀ meter ∈ meters, meter.remaining ≤ meter.limit := by
  refine ⟨?_, transact_meters hrun⟩
  rw [transact_run] at hrun
  rcases hbody : (runTransaction .silent).run (m.withTransaction tx) with ⟨r, m₁⟩
  rw [hbody] at hrun
  cases r with
  | error e => cases hrun
  | ok receipt₁ =>
    cases hrun
    obtain ⟨hintrinsic, frame, hresult, hle⟩ := runTransaction_settles hbody
    rw [hresult]
    exact ⟨_, gasBounds_ofFrame hintrinsic hle⟩

end

/-- Code that clears the slot 0. -/
def clearing : Bytes := #[0x60, 0, 0x60, 0, 0x55]

/-- A machine on which the account 1 can pay for gas, over a store with an account that has code
which clears a slot. -/
def cleanable : Machine Unit :=
  let code := Code.ofHashed clearing 7
  let requests : List World.Request := [.putAccount 1 { balance := 1000000 },
    .putAccount 0x100 { codeHash := 7 }, .putCode code, .setSlot 0x100 0 5, .flush]
  start (.ofWorld {} (World.serveAll requests (.ofStore {} .ordered)).2) ()

/-- The account 1 calls that account. -/
def clearance : Transaction := { caller := 1, to? := some 0x100, gasLimit := 30000, gasPrice := 1 }

/-- Clearing a slot gives gas back. -/
theorem transact_gasBounds_clearance :
    ∃ receipt m', (transact .silent clearance).run cleanable = (.ok receipt, m') ∧
      receipt.result.gasUsed = 21206 ∧ receipt.result.gasRefunded = 4800 ∧
      ∃ meter, GasBounds { cleanable.context.env with transaction := clearance } meter receipt.result := by
  have hok : ((transact .silent clearance).run cleanable).1.toOption.map
      (fun receipt => (receipt.result.gasUsed, receipt.result.gasRefunded)) =
        some (21206, 4800) := by
    decide +kernel
  rcases hrun : (transact .silent clearance).run cleanable with ⟨r, m'⟩
  rw [hrun] at hok
  cases r with
  | error e => cases hok
  | ok receipt =>
    obtain ⟨hused, hrefunded⟩ := Prod.mk.inj (Option.some.inj hok)
    exact ⟨receipt, m', rfl, hused, hrefunded, (transact_gasBounds hrun).1⟩

end Machine

end Evm
