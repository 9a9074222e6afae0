import Mathlib.Algebra.Order.Floor.Div
import Mathlib.Data.Nat.Size
import Mathlib.Tactic
import Evm.Precompile.ModExp
import Evm.Proofs.Word

/-!
# The price of an exponentiation

Lengths are counts and the head of the exponent is a word, so the price has a formula on integers.
The contract works on words, where nothing of it is lost, but it takes no more squarings into account
than a count can hold. That shows in the price only if each squaring costs less than one gas
(`ModExp.prices_eq`).
-/

namespace Evm.Precompile.ModExp

/-! ## Squarings -/

/-- The number of bits by which the exponent goes on after its highest one, as its length and its
head tell. -/
def adjustedLength (length head : Nat) : Nat :=
  head.size - 1 + if 32 < length then 8 * (length - 32) else 0

lemma bitLength_eq (n : Nat) : bitLength n = n.size := by
  unfold bitLength
  split_ifs with hzero
  · rw [hzero, Nat.size_zero]
  · refine le_antisymm (Nat.lt_size.2 ?_) (Nat.size_le.2 Nat.lt_log2_self)
    exact Nat.log2_self_le hzero

lemma size_toNat_le (w : Word) : w.toNat.size ≤ 256 := Nat.size_le.2 w.isLt

/-- There is at least one squaring, and no more are counted than a count can hold. -/
lemma squarings_eq (length : Nat) (head : Word) :
    squarings length head.toNat = min (max (adjustedLength length head.toNat) 1) Count.max := by
  have hsize := size_toNat_le head
  have hmax := Count.max_eq
  unfold squarings adjustedLength Count.satAdd Count.satMul
  rw [bitLength_eq]
  simp only [Nat.max_def, Nat.min_def, hmax]
  split_ifs <;> omega

/-! ## One multiplication -/

/-- What the first price takes for a multiplication of numbers of `x` bytes. -/
def quadratic (x : Nat) : ℤ :=
  if x ≤ 64 then x ^ 2
  else if x ≤ 1024 then x ^ 2 / 4 + 96 * x - 3072
  else x ^ 2 / 16 + 480 * x - 199680

section

variable {x : Nat} (h : x ≤ Count.max)

include h

lemma sq_le : x * x ≤ Count.max * Count.max := Nat.mul_le_mul h h

/-- A word has room for the square, and nothing is taken from less than there is. -/
lemma toNat_firstComplexity :
    (firstComplexity x).toNat =
      if x ≤ 64 then x * x
      else if x ≤ 1024 then x * x / 4 + 96 * x - 3072
      else x * x / 16 + 480 * x - 199680 := by
  have hmax := Count.max_eq
  have hsq := sq_le h
  have hx : (BitVec.ofNat 256 x).toNat = x := by
    rw [BitVec.toNat_ofNat, Nat.mod_eq_of_lt (by omega)]
  rw [hmax] at hsq
  unfold firstComplexity
  dsimp only
  split_ifs
  all_goals
    simp only [BitVec.toNat_sub, BitVec.toNat_add, BitVec.toNat_mul, BitVec.toNat_udiv, hx,
      BitVec.reduceToNat]
    omega

lemma toNat_secondComplexity : (secondComplexity x).toNat = (x ⌈/⌉ 8) ^ 2 := by
  have hmax := Count.max_eq
  have hceil : x ⌈/⌉ 8 = (x + 7) / 8 := Nat.ceilDiv_eq_add_pred_div x 8
  have hle : (x + 7) / 8 ≤ Count.max := by omega
  have hlimbs : (BitVec.ofNat 256 ((x + 7) / 8)).toNat = (x + 7) / 8 := by
    rw [BitVec.toNat_ofNat, Nat.mod_eq_of_lt (by omega)]
  have hsq := sq_le hle
  unfold secondComplexity
  dsimp only
  rw [BitVec.toNat_mul, hlimbs, hceil, pow_two, Nat.mod_eq_of_lt]
  rw [hmax] at hsq
  omega

lemma quadratic_eq : quadratic x = (firstComplexity x).toNat := by
  rw [toNat_firstComplexity h, quadratic, pow_two]
  split_ifs
  all_goals push_cast
  all_goals omega

end

/-! ## The price -/

/-- Nothing of the product is lost in a word, so that only the number of squarings is cut off. -/
lemma priceWith_eq {minimum base exponent modulus cost : Nat} {divisor head : Word}
    {complexity : Nat → Word} (hcost : (complexity (max base modulus)).toNat = cost)
    (hroom : cost ≤ Count.max * Count.max) :
    priceWith minimum divisor complexity base exponent modulus head.toNat =
      max minimum (min (cost * min (max (adjustedLength exponent head.toNat) 1) Count.max /
        divisor.toNat) Count.max) := by
  have hcount := squarings_eq exponent head
  generalize max (adjustedLength exponent head.toNat) 1 = n at hcount ⊢
  have hsquarings : squarings exponent head.toNat ≤ Count.max := by
    rw [hcount]
    exact min_le_right _ _
  have hword : (BitVec.ofNat 256 (squarings exponent head.toNat)).toNat =
      squarings exponent head.toNat := by
    rw [BitVec.toNat_ofNat, Nat.mod_eq_of_lt (hsquarings.trans_lt (by decide))]
  have hproduct : cost * squarings exponent head.toNat ≤ Word.max.toNat := by
    refine (Nat.mul_le_mul hroom hsquarings).trans ?_
    decide
  have hmul : (Word.satMul (complexity (max base modulus))
      (BitVec.ofNat 256 (squarings exponent head.toNat))).toNat =
        cost * squarings exponent head.toNat := by
    have hmin : Nat.min (cost * squarings exponent head.toNat) Word.max.toNat =
        cost * squarings exponent head.toNat := min_eq_left hproduct
    rw [Word.satMul, hcost, hword, hmin, BitVec.toNat_ofNat,
      Nat.mod_eq_of_lt (hproduct.trans_lt Word.max.isLt)]
  have hmax : Nat.max base modulus = max base modulus := rfl
  unfold priceWith
  dsimp only
  rw [hmax, Word.toCount_eq, BitVec.toNat_udiv, hmul, hcount]

/-- Squarings beyond a largest number do not show in a price that stops there, unless they are so
cheap that this number of them does not reach it. -/
lemma min_mul_min_div {cost n divisor most : Nat} (hdivisor : 0 < divisor)
    (h : n ≤ most ∨ cost = 0 ∨ divisor ≤ cost) :
    min (cost * min n most / divisor) most = min (cost * n / divisor) most := by
  rcases h with hle | rfl | hle
  · rw [min_eq_left hle]
  · rw [zero_mul, zero_mul]
  · rcases le_total n most with hn | hn
    · rw [min_eq_left hn]
    · have hreach {k : Nat} (hk : most ≤ k) : most ≤ cost * k / divisor := by
        rw [Nat.le_div_iff_mul_le hdivisor, mul_comm]
        exact Nat.mul_le_mul hle hk
      rw [min_eq_right hn, min_eq_right (hreach le_rfl), min_eq_right (hreach hn)]

/-- The first price of `n` squarings of numbers of `x` bytes. -/
def firstFormula (x n : Nat) : ℤ := min (2 ^ 64 - 1) (quadratic x * n / 20)

/-- The second price of `n` squarings of numbers of `x` bytes. -/
def secondFormula (x n : Nat) : Nat := max 200 (min (2 ^ 64 - 1) ((x ⌈/⌉ 8) ^ 2 * n / 3))

section

variable {x : Nat} (h : x ≤ Count.max)

include h

lemma firstFormula_eq (n : Nat) :
    firstFormula x n = min ((firstComplexity x).toNat * n / 20) Count.max := by
  have hmax : (2 ^ 64 - 1 : ℤ) = (Count.max : Nat) := rfl
  rw [firstFormula, quadratic_eq h, min_comm, hmax]
  push_cast
  rfl

lemma firstFormula_min {n : Nat} (hn : n ≤ Count.max ∨ x = 0 ∨ 5 ≤ x) :
    firstFormula x (min n Count.max) = firstFormula x n := by
  have hcost : n ≤ Count.max ∨ (firstComplexity x).toNat = 0 ∨ 20 ≤ (firstComplexity x).toNat := by
    rw [toNat_firstComplexity h]
    refine hn.imp_right (Or.imp (fun hx => ?_) fun hx => ?_)
    · rw [hx]
      rfl
    · have hsq : 5 * 5 ≤ x * x := Nat.mul_le_mul hx hx
      split_ifs <;> omega
  rw [firstFormula_eq h, firstFormula_eq h]
  exact congrArg Nat.cast (min_mul_min_div (by decide) hcost)

end

lemma secondFormula_min {x n : Nat} (hn : n ≤ Count.max ∨ x = 0 ∨ 9 ≤ x) :
    secondFormula x (min n Count.max) = secondFormula x n := by
  have hcost : n ≤ Count.max ∨ (x ⌈/⌉ 8) ^ 2 = 0 ∨ 3 ≤ (x ⌈/⌉ 8) ^ 2 := by
    rw [Nat.ceilDiv_eq_add_pred_div]
    refine hn.imp_right (Or.imp (fun hx => ?_) fun hx => ?_)
    · rw [hx]
      rfl
    · have hlimbs : 2 ≤ (x + 8 - 1) / 8 := by omega
      exact le_trans (by decide) (Nat.pow_le_pow_left hlimbs 2)
  have hmin : min ((x ⌈/⌉ 8) ^ 2 * min n Count.max / 3) Count.max =
      min ((x ⌈/⌉ 8) ^ 2 * n / 3) Count.max := min_mul_min_div (by decide) hcost
  rw [min_comm, min_comm (_ / _)] at hmin
  exact congrArg (max 200) hmin

section

variable (base exponent modulus : UInt64) (head : Word)

lemma max_toNat_le : max base.toNat modulus.toNat ≤ Count.max := by
  have hbase := base.toNat_lt
  have hmodulus := modulus.toNat_lt
  have hmax := Count.max_eq
  omega

lemma firstPrice_eq :
    firstPrice base.toNat exponent.toNat modulus.toNat head.toNat =
      firstFormula (max base.toNat modulus.toNat)
        (min (max (adjustedLength exponent.toNat head.toNat) 1) Count.max) := by
  have hx := max_toNat_le base modulus
  have hroom : (firstComplexity (max base.toNat modulus.toNat)).toNat ≤ Count.max * Count.max := by
    have hsq := sq_le hx
    have hmax := Count.max_eq
    rw [toNat_firstComplexity hx]
    rw [hmax] at hx hsq ⊢
    split_ifs <;> omega
  rw [firstFormula_eq hx]
  exact congrArg Nat.cast ((priceWith_eq rfl hroom).trans (Nat.zero_max _))

lemma secondPrice_eq :
    secondPrice base.toNat exponent.toNat modulus.toNat head.toNat =
      secondFormula (max base.toNat modulus.toNat)
        (min (max (adjustedLength exponent.toNat head.toNat) 1) Count.max) := by
  have hx := max_toNat_le base modulus
  have hroom : (max base.toNat modulus.toNat ⌈/⌉ 8) ^ 2 ≤ Count.max * Count.max := by
    have hlimbs : max base.toNat modulus.toNat ⌈/⌉ 8 ≤ Count.max := by
      rw [Nat.ceilDiv_eq_add_pred_div]
      omega
    rw [pow_two]
    exact sq_le hlimbs
  rw [secondFormula, min_comm]
  exact priceWith_eq (toNat_secondComplexity hx) hroom

end

/-- A price is the one of its formula for as many squarings as a count can hold, at most. Where the
exponent asks for more of them, this still is the price of all of them if there is nothing to
multiply or a multiplication costs one gas or more. -/
theorem prices_eq (base exponent modulus : UInt64) (head : Word) :
    let x := max base.toNat modulus.toNat
    let n := max (adjustedLength exponent.toNat head.toNat) 1
    let first := firstPrice base.toNat exponent.toNat modulus.toNat head.toNat
    let second := secondPrice base.toNat exponent.toNat modulus.toNat head.toNat
    (first = firstFormula x (min n Count.max) ∧ second = secondFormula x (min n Count.max)) ∧
      (n ≤ Count.max ∨ x = 0 ∨ 5 ≤ x → first = firstFormula x n) ∧
      (n ≤ Count.max ∨ x = 0 ∨ 9 ≤ x → second = secondFormula x n) := by
  have hfirst := firstPrice_eq base exponent modulus head
  have hsecond := secondPrice_eq base exponent modulus head
  have hx := max_toNat_le base modulus
  exact ⟨⟨hfirst, hsecond⟩, fun hn => hfirst.trans (firstFormula_min hx hn),
    fun hn => hsecond.trans (secondFormula_min hn)⟩

/-- The longest exponent whose squarings can still be counted, between operands of one byte. -/
theorem prices_eq_longest :
    adjustedLength 2305843009213693983 0x80 = 18446744073709551615 ∧
      firstPrice 1 2305843009213693983 1 0x80 = firstFormula 1 18446744073709551615 ∧
      secondPrice 1 2305843009213693983 1 0x80 = secondFormula 1 18446744073709551615 := by
  have hlength : adjustedLength 2305843009213693983 0x80 = 18446744073709551615 := by
    rw [adjustedLength, ← bitLength_eq]
    decide
  obtain ⟨-, hfirst, hsecond⟩ := prices_eq 1 2305843009213693983 1 0x80
  have hcounted : max (adjustedLength 2305843009213693983 0x80) 1 ≤ Count.max := by
    rw [hlength]
    decide
  refine ⟨hlength, ?_, ?_⟩
  · refine (hfirst (.inl hcounted)).trans ?_
    exact congrArg (fun n => firstFormula 1 (max n 1)) hlength
  · refine (hsecond (.inl hcounted)).trans ?_
    exact congrArg (fun n => secondFormula 1 (max n 1)) hlength

/-- The longest exponent of all asks for nearly eight times as many squarings as can be counted.
Between operands of one byte they are paid for with an eighth, or a third, of their price. -/
theorem not_prices_eq_uncounted :
    let n := max (adjustedLength 18446744073709551615 0) 1
    let first := firstPrice 1 18446744073709551615 1 0
    let second := secondPrice 1 18446744073709551615 1 0
    (first = 922337203685477580 ∧ firstFormula 1 n = 7378697629483820633 ∧
        (first : ℤ) ≠ firstFormula 1 n) ∧
      (second = 6148914691236517205 ∧ secondFormula 1 n = 18446744073709551615 ∧
        second ≠ secondFormula 1 n) := by
  have hlength : adjustedLength 18446744073709551615 0 = 147573952589676412664 := by
    rw [adjustedLength, Nat.size_zero]
    rfl
  dsimp only
  rw [hlength]
  decide

end Evm.Precompile.ModExp
