import Evm.Proofs.Machine.Conservation
import Evm.Proofs.Machine.Gas

/-!
# Fees

A transaction pays for its gas in advance, is paid back for what it did not use, and the beneficiary
gets what was used, at the price without the base fee where that is burned. So the sum of all
balances goes down by the gas used times what is burned per gas. None of this leaves the range of a
word, because the sender was found to hold the most that the transaction can cost.
-/

namespace Evm

open Ledger (Uniform saturating)

/-! ## Arithmetic -/

lemma Word.toNat_satMul {a b : Word} (h : a.toNat * b.toNat < 2 ^ 256) :
    (Word.satMul a b).toNat = a.toNat * b.toNat := by
  have hmax : Word.max.toNat = 2 ^ 256 - 1 := rfl
  have hmin : Nat.min (a.toNat * b.toNat) Word.max.toNat = a.toNat * b.toNat :=
    Nat.min_eq_left (by omega)
  rw [Word.satMul, hmin, BitVec.toNat_ofNat, Nat.mod_eq_of_lt h]

/-- Counts are multiplied as they are, as long as the product is a word. -/
lemma Word.toNat_satMul_ofNat {price : Word} {n : Nat} (h : n * price.toNat < 2 ^ 256) :
    (Word.satMul (BitVec.ofNat 256 n) price).toNat = n * price.toNat := by
  have hprod : (BitVec.ofNat 256 n).toNat * price.toNat = n * price.toNat := by
    rcases Nat.eq_zero_or_pos price.toNat with hzero | hpos
    · rw [hzero, Nat.mul_zero, Nat.mul_zero]
    · have hlt : n < 2 ^ 256 := (Nat.le_mul_of_pos_right n hpos).trans_lt h
      rw [BitVec.toNat_ofNat, Nat.mod_eq_of_lt hlt]
  rw [Word.toNat_satMul (hprod ▸ h), hprod]

namespace Env

variable (env : Env)

lemma gasPrice_le : env.gasPrice.toNat ≤ env.transaction.gasPrice.toNat := by
  unfold gasPrice Transaction.effectiveGasPrice
  split
  · dsimp only
    split
    · exact le_rfl
    · rename_i h
      exact (BitVec.not_le.1 h).le
  · exact le_rfl

/-- A sender that passes the checks has no code and not the largest nonce, and the most that the
transaction can cost is a word. The sender holds that much, where funds are checked. -/
lemma checkSender_eq_ok {sender : Account} (h : env.checkSender sender = .ok ()) :
    sender.hasCode = false ∧ sender.nonce ≠ UInt64.ofNat Count.max ∧
      env.transaction.gasLimit * env.transaction.gasPrice.toNat + env.transaction.value.toNat <
        2 ^ 256 ∧
      (env.config.skipBalanceCheck = false →
        env.transaction.gasLimit * env.transaction.gasPrice.toNat + env.transaction.value.toNat ≤
          sender.balance.toNat) := by
  unfold checkSender at h
  by_cases hcode : sender.hasCode = true
  · rw [if_pos hcode] at h
    cases h
  by_cases hnonce : sender.nonce = UInt64.ofNat Count.max
  · rw [if_neg hcode, if_pos hnonce] at h
    cases h
  rw [if_neg hcode, if_neg hnonce] at h
  refine ⟨Bool.eq_false_iff.2 hcode, hnonce, ?_⟩
  cases hn : env.checkNonce sender with
  | error e =>
    rw [hn] at h
    cases h
  | ok _ =>
    rw [hn] at h
    unfold maxCost at h
    dsimp only at h
    split at h
    · rename_i hmax
      have hlt : env.transaction.gasLimit * env.transaction.gasPrice.toNat +
          env.transaction.value.toNat < 2 ^ 256 := hmax.trans_lt (by decide)
      refine ⟨hlt, fun hskip => ?_⟩
      rw [hskip] at h
      change (if (!false && decide (sender.balance < _)) = true then _ else _) = _ at h
      split at h
      · cases h
      · rename_i hfunds
        have hle := BitVec.not_lt.1 (by simpa using hfunds)
        rwa [BitVec.le_def, BitVec.toNat_ofNat, Nat.mod_eq_of_lt hlt] at hle
    · cases h

end Env

namespace Gas.Meter

end Gas.Meter

/-! ## Steps of the settlement -/

namespace Context

variable {c : Context} {supply : Nat} {exactly : Prop}

lemma uniform_onWorld {α : Type} {Q : α → World → Prop} {op : Ledger → WorldM α}
    (h : Uniform Q op c.world) :
    Uniform (fun a c' => ∃ world, Q a world ∧ c' = { c with world })
      (fun ledger => Context.onWorld (op ledger)) c := by
  obtain ⟨r, world, hrun, hQ⟩ := h
  exact ⟨r, _, fun ledger hl => onWorld_run (hrun ledger hl), fun a ha => ⟨world, hQ a ha, rfl⟩⟩

end Context

namespace Machine

variable {m : Machine Unit} {supply : Nat}

@[simp] lemma gasLimit_ofTransaction (tx : Transaction) (gasLimit : Nat) :
    (Message.ofTransaction tx gasLimit).gasLimit = gasLimit := by
  unfold Message.ofTransaction
  split <;> rfl

end Machine

end Evm
