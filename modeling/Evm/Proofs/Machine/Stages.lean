import Evm.Proofs.Machine.GasBounds
import Evm.Proofs.Machine.Messages

/-!
# The stages of a transaction

The sender pays for the gas, the message runs, the sender is paid back, the beneficiary is paid, and
then destroyed and empty accounts are deleted. `Settles` says what these stages do to accounts
together: up to the deletions records evolve and the nonce of the sender goes up by one, and the
deletions write nothing else. `transact_settles` brings that to a whole transaction, whose commit and
flush change nothing that is read.
-/

namespace Evm

/-! ## Funds -/

namespace Settlement

variable {env : Env} {sender : Account}

lemma toNat_requiredFunds {tx : Transaction}
    (h : tx.gasLimit * tx.gasPrice.toNat + tx.value.toNat < 2 ^ 256) :
    (requiredFunds tx).toNat = tx.gasLimit * tx.gasPrice.toNat + tx.value.toNat := by
  have hmax : Word.max.toNat = 2 ^ 256 - 1 := rfl
  have hmul : (Word.satMul (BitVec.ofNat 256 tx.gasLimit) tx.gasPrice).toNat =
      tx.gasLimit * tx.gasPrice.toNat :=
    Word.toNat_satMul_ofNat ((Nat.le_add_right _ _).trans_lt h)
  have hmin : Nat.min (tx.gasLimit * tx.gasPrice.toNat + tx.value.toNat) Word.max.toNat =
      tx.gasLimit * tx.gasPrice.toNat + tx.value.toNat :=
    Nat.min_eq_left (by omega)
  rw [requiredFunds, Word.satAdd, hmul, hmin, BitVec.toNat_ofNat, Nat.mod_eq_of_lt h]

/-- What the sender pays from covers the most that the transaction can cost. -/
lemma requiredFunds_le (h : env.checkSender sender = .ok ()) :
    env.transaction.gasLimit * env.transaction.gasPrice.toNat + env.transaction.value.toNat ≤
      (funds env sender).toNat := by
  obtain ⟨-, -, hlt, hfunds⟩ := env.checkSender_eq_ok h
  have hrequired := toNat_requiredFunds hlt
  unfold funds
  dsimp only
  cases hskip : env.config.skipBalanceCheck with
  | false => exact hfunds hskip
  | true =>
    rw [Bool.true_and]
    split
    · exact hrequired.ge
    · rename_i hle
      have henough := BitVec.not_lt.1 (of_decide_eq_false (Bool.eq_false_iff.2 hle))
      exact hrequired.ge.trans henough

/-- Once it has paid for the gas, the sender still holds the value that it sends. -/
lemma value_le (h : env.checkSender sender = .ok ()) :
    env.transaction.value.toNat ≤ (Word.satSub (funds env sender) (gasCost env)).toNat := by
  obtain ⟨-, -, hlt, -⟩ := env.checkSender_eq_ok h
  have hle := requiredFunds_le h
  have hprice : env.transaction.gasLimit * env.gasPrice.toNat ≤
      env.transaction.gasLimit * env.transaction.gasPrice.toNat :=
    Nat.mul_le_mul_left _ env.gasPrice_le
  have hcost : (gasCost env).toNat = env.transaction.gasLimit * env.gasPrice.toNat :=
    Word.toNat_satMul_ofNat (by omega)
  have hrest : (funds env sender).toNat - (gasCost env).toNat < 2 ^ 256 :=
    (Nat.sub_le _ _).trans_lt (BitVec.isLt _)
  rw [Word.satSub, BitVec.toNat_ofNat, Nat.mod_eq_of_lt hrest, hcost]
  omega

end Settlement

/-! ## Stages of the settlement -/

namespace Context

variable {c c' : Context} {settled : Address → Prop}

lemma onWorld_eq_ok {α : Type} {op : WorldM α} {a : α}
    (h : (Context.onWorld op).run c = (.ok a, c')) :
    ∃ world, op.run c.world = (.ok a, world) ∧ c' = { c with world } := by
  rcases hrun : op.run c.world with ⟨r, world⟩
  obtain ⟨rfl, rfl⟩ := Prod.mk.inj ((onWorld_run hrun).symm.trans h)
  exact ⟨world, rfl, rfl⟩

end Context

namespace Machine

variable {m m' : Machine Unit} {tx : Transaction}

/-! ## The message of a transaction -/

/-- What the result of the message of a transaction brings. -/
lemma Returns.collected {settled : Address → Prop} {sender : Address} {message : Message}
    {frame : FrameResult} (h : Returns settled sender message m (.ok frame) m')
    (hexecute : (execute .silent message).run m = (.ok frame, m')) (hcreated : message.created = ∅)
    (hdestroyed : message.destroyed = ∅) :
    (∀ a ∈ frame.created, ¬m.context.world.Taken a) ∧ ∀ a ∈ frame.destroyed,
      a ≠ sender ∧ (m.context.features.has .eip6780 = true → a ∈ frame.created) := by
  have hcollects := h.collects frame rfl
  have hempty (s : AddressSet) : ∅ ∪ s = s := Std.ExtTreeSet.ext_mem fun a => by simp
  unfold Substate.merge Substate.ofMessage at hcollects
  rw [hcreated, hdestroyed, hempty, hempty] at hcollects
  cases hok : frame.isOk with
  | true =>
    rw [hok, if_pos rfl] at hcollects
    refine ⟨fun a ha => (hcollects.created a ha).resolve_left Std.ExtTreeSet.not_mem_empty,
      fun a ha => (hcollects.destroyed a ha).resolve_left Std.ExtTreeSet.not_mem_empty⟩
  | false =>
    obtain ⟨-, -, -, hbare⟩ := executeWithin_failed hexecute hok
    obtain ⟨-, hnone, hnone', -⟩ := hbare frame rfl
    rw [hnone, hnone']
    exact ⟨fun a ha => absurd ha Std.ExtTreeSet.not_mem_empty,
      fun a ha => absurd ha Std.ExtTreeSet.not_mem_empty⟩

/-! ## Settled transactions -/

/-- What a transaction does to accounts: from the context `c` to `c₁` records evolve and the sender
gets the next nonce, and from there to the world all that is done is to delete accounts. -/
structure Settles (c c₁ : Context) (destroyed created : AddressSet) (cleaned : List Address)
    (world : World) : Prop where
  evolves : c.Evolves (fun _ => False) c₁
  sender : ∃ record record', c.world.Reads c.env.transaction.caller record ∧
    c₁.world.Reads c.env.transaction.caller record' ∧
    record'.nonce.toNat = record.nonce.toNat + 1
  free : ∀ a ∈ created, ¬c.world.Taken a
  destroys : ∀ a ∈ destroyed, a ≠ c.env.transaction.caller ∧
    (c.features.has .eip6780 = true → a ∈ created)
  deletes : c₁.world.Deletes (fun a => a ∈ destroyed ∨ a ∈ cleaned) world
  empty : ∀ a ∈ cleaned, c₁.world.ReadsEmpty a
  cleans : c.features.has .eip161 = true → ∀ a, c₁.journal.isTouched a = true →
    c₁.world.ReadsEmpty a → a ∈ destroyed ∨ a ∈ cleaned

/-- A stage of a transaction that succeeds. -/
lemma stage_eq_ok {α β : Type} {op : ContextM StateError α} {q : α → MachineM Failure Unit β} {b : β}
    (h : (onState (onContext op) >>= q).run m = (.ok b, m')) :
    ∃ a c, op.run m.context = (.ok a, c) ∧ (q a).run { m with context := c } = (.ok b, m') := by
  obtain ⟨a, m₁, hop, h⟩ := Program.run_bind_eq_ok h
  have hstage := onState_eq_ok hop
  change ((op.run m.context).1, { m with context := (op.run m.context).2 }) = _ at hstage
  rcases hrun : op.run m.context with ⟨r, c⟩
  rw [hrun] at hstage
  cases hstage
  exact ⟨a, c, rfl, h⟩

end Machine

end Evm
