import Evm.Gas.Price
import Evm.Proofs.Rlp

/-!
# The price of an exponent

An exponent is paid for by its significant bytes. Their number comes from the place of its highest
bit, which is looked for limb by limb from the highest limb downward: `Word.log2` is the logarithm,
and `Gas.exp` is a price for each byte that it takes to write the exponent.
-/

namespace Evm

namespace Word

lemma toNat_limb (w : Word) (i : Nat) : (w.limb i).toNat = w.toNat / 2 ^ (64 * i) % 2 ^ 64 := by
  rw [limb, BitVec.extractLsb'_toNat, Nat.shiftRight_eq_div_pow]

/-- The leading zeros of a limb and the place of its highest bit make up its width. -/
lemma log_toNat_add_clz {x : BitVec 64} (h : x ≠ 0) : Nat.log 2 x.toNat + x.clz.toNat = 63 := by
  have hclz : x.clz.toNat < 64 := BitVec.clz_lt_iff_ne_zero.2 h
  have hle : 2 ^ (63 - x.clz.toNat) ≤ x.toNat :=
    BitVec.two_pow_sub_clz_le_toNat_of_ne_zero (by decide) h
  have hlt : x.toNat < 2 ^ (63 - x.clz.toNat + 1) := by
    rw [show 63 - x.clz.toNat + 1 = 64 - x.clz.toNat by omega]
    exact BitVec.toNat_lt_two_pow_sub_clz
  have hne : x.toNat ≠ 0 := ((Nat.two_pow_pos _).trans_le hle).ne'
  rw [(Nat.log_eq_iff (.inr ⟨by decide, hne⟩)).2 ⟨hle, hlt⟩]
  omega

/-- A word that fits into its lowest limbs has its highest bit there. -/
lemma highestBit_eq {w : Word} {n : Nat} (h : w.toNat < 2 ^ (64 * n)) :
    highestBit w n (64 * n) = Nat.log 2 w.toNat := by
  induction n with
  | zero =>
    rw [Nat.lt_one_iff.1 h]
    rfl
  | succ n ih =>
    have hlimb : (w.limb n).toNat = w.toNat / 2 ^ (64 * n) := by
      have hlt : w.toNat / 2 ^ (64 * n) < 2 ^ 64 := by
        rw [Nat.div_lt_iff_lt_mul (Nat.two_pow_pos _), ← pow_add]
        exact h.trans_eq (congrArg _ (by omega))
      rw [toNat_limb, Nat.mod_eq_of_lt hlt]
    rw [highestBit]
    by_cases hzero : w.limb n = 0
    · -- The limb is empty, so that the word fits into the ones below.
      have hdiv : w.toNat / 2 ^ (64 * n) = 0 := by
        rw [← hlimb, hzero]
        rfl
      rw [if_pos hzero, show 64 * (n + 1) - 64 = 64 * n by omega]
      exact ih (Nat.lt_of_div_eq_zero (Nat.two_pow_pos _) hdiv)
    · -- The highest bit of the word is in this limb, with all the bits of the ones below behind it.
      have hclz := log_toNat_add_clz hzero
      have hne : w.toNat / 2 ^ (64 * n) ≠ 0 := fun hdiv =>
        hzero (BitVec.eq_of_toNat_eq (hlimb.trans hdiv))
      have hle : 64 * n ≤ Nat.log 2 w.toNat :=
        Nat.le_log_of_pow_le (by decide) (Nat.div_ne_zero_iff.1 hne).2
      rw [hlimb, Nat.log_div_base_pow] at hclz
      rw [if_neg hzero]
      dsimp only
      rw [if_neg (by omega)]
      omega

lemma log2_eq (w : Word) : w.log2 = Nat.log 2 w.toNat := highestBit_eq (n := 4) w.isLt

end Word

/-- Each byte that it takes to write the exponent is paid for, and none in front that would be zero.
They are counted by the logarithm. -/
theorem Gas.exp_eq (features : Features) (e : Word) :
    exp features e =
        some ((if features.has .eip160 then 50 else 10) * (Rlp.digits e.toNat).length) ∧
      e.log2 = Nat.log 2 e.toNat := by
  refine ⟨?_, Word.log2_eq e⟩
  unfold exp
  by_cases hzero : e = 0
  · have hdigits : Rlp.digits e.toNat = [] := by
      rw [hzero]
      exact Rlp.digits_zero
    rw [if_pos hzero, hdigits, List.length_nil, Nat.mul_zero]
  · have hne : e.toNat ≠ 0 := fun h => hzero (BitVec.eq_of_toNat_eq h)
    have hlength := Rlp.length_digits e.toNat
    rw [if_neg hne, ← Word.log2_eq] at hlength
    have hle : (Rlp.digits e.toNat).length ≤ 32 := Rlp.length_digits_le e.isLt
    have hmax := Count.max_eq
    rw [if_neg hzero, ← hlength]
    refine if_pos ?_
    split <;> omega

end Evm
