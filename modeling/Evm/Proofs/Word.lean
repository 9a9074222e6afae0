import Mathlib.Tactic
import Evm.Word

/-!
# Words as integers

A word is an unsigned number, and it is a two's complement integer. The signed operations strip the
sign of their operands, compute on what is left and put a sign back. This file says what comes out
in terms of the integers: `compare`, the quotient rounded toward zero and its remainder. Extending
the sign of the low bytes, taking a byte and shifting are products, quotients and remainders by
powers of two.
-/

namespace Evm.Word

variable {a b w : Word}

/-! ## Sign and magnitude -/

lemma sign_eq_minus : w.sign = .minus ↔ w.toInt < 0 := by
  have hmsb : w.msb = decide (w.toInt < 0) := BitVec.msb_eq_toInt
  unfold sign
  rw [hmsb]
  split_ifs <;> simp_all

lemma toInt_eq_zero : w.toInt = 0 ↔ w = 0 := BitVec.toInt_inj (y := 0#256)

lemma sign_eq_zero : w.sign = .zero ↔ w.toInt = 0 := by
  rw [toInt_eq_zero]
  unfold sign
  split_ifs with hneg hzero
  · refine ⟨nofun, fun hzero => ?_⟩
    rw [hzero] at hneg
    exact absurd hneg (by decide)
  · exact ⟨fun _ => hzero, fun _ => rfl⟩
  · exact ⟨nofun, fun h => absurd h hzero⟩

lemma rank_sign (w : Word) : w.sign.rank = w.toInt.sign := by
  cases hsign : w.sign with
  | minus => exact (Int.sign_eq_neg_one_of_neg (sign_eq_minus.1 hsign)).symm
  | zero => exact (Int.sign_eq_zero_iff_zero.2 (sign_eq_zero.1 hsign)).symm
  | plus =>
    have hminus : ¬w.toInt < 0 := fun h => by cases hsign.symm.trans (sign_eq_minus.2 h)
    have hzero : ¬w.toInt = 0 := fun h => by cases hsign.symm.trans (sign_eq_zero.2 h)
    exact (Int.sign_eq_one_of_pos (by omega)).symm

lemma toNat_eq (w : Word) : (w.toNat : Int) = if w.toInt < 0 then w.toInt + 2 ^ 256 else w.toInt := by
  have hw := w.isLt
  rw [BitVec.toInt_eq_toNat_cond]
  split_ifs <;> omega

lemma natAbs_toInt_le (w : Word) : w.toInt.natAbs ≤ 2 ^ 255 := by
  have hlow := BitVec.le_toInt w
  have hhigh := BitVec.toInt_lt (x := w)
  omega

lemma toNat_magnitude (w : Word) : w.magnitude.toNat = w.toInt.natAbs := by
  have hnat := toNat_eq w
  have hbound := natAbs_toInt_le w
  unfold magnitude
  split_ifs with hsign
  · have hneg := sign_eq_minus.1 hsign
    rw [BitVec.toNat_neg]
    omega
  · have hneg := mt sign_eq_minus.2 hsign
    omega

/-- A word without sign bit loses nothing with it. -/
lemma dropSign_of_lt (h : w.toNat < 2 ^ 255) : dropSign w = w := by
  have hmask : (~~~minValue).toNat = 2 ^ 255 - 1 := by decide
  apply BitVec.eq_of_toNat_eq
  rw [dropSign, BitVec.toNat_and, hmask, Nat.and_two_pow_sub_one_eq_mod, Nat.mod_eq_of_lt h]

lemma ofInt_toNat (w : Word) : BitVec.ofInt 256 w.toNat = w := by
  rw [BitVec.ofInt_natCast, BitVec.ofNat_toNat, BitVec.setWidth_eq]

/-! ## Comparison -/

lemma toInt_lt_iff (a b : Word) :
    a.toInt < b.toInt ↔
      a.sign.rank < b.sign.rank ∨ a.sign.rank = b.sign.rank ∧ a.toNat < b.toNat := by
  have ha := toNat_eq a
  have hb := toNat_eq b
  have hbounds := natAbs_toInt_le a
  have hbounds' := natAbs_toInt_le b
  rw [rank_sign, rank_sign]
  rcases Int.lt_trichotomy a.toInt 0 with hneg | hzero | hpos <;>
  rcases Int.lt_trichotomy b.toInt 0 with hneg' | hzero' | hpos'
  all_goals simp_all [Int.sign_eq_neg_one_of_neg, Int.sign_eq_one_of_pos]
  all_goals omega

/-- Comparing by sign and then by unsigned value compares the integers. -/
lemma signedCompare_eq (a b : Word) : signedCompare a b = compare a.toInt b.toInt := by
  unfold signedCompare
  rcases Int.lt_trichotomy a.toInt b.toInt with hlt | heq | hgt
  · rw [compare_lt_iff_lt.2 hlt, Ordering.then_eq_lt, compare_lt_iff_lt, compare_lt_iff_lt,
      compare_eq_iff_eq]
    exact (toInt_lt_iff a b).1 hlt
  · obtain rfl := BitVec.toInt_inj.1 heq
    simp
  · rw [compare_gt_iff_gt.2 hgt, Ordering.then_eq_gt, compare_gt_iff_gt, compare_gt_iff_gt,
      compare_eq_iff_eq, eq_comm]
    exact (toInt_lt_iff b a).1 hgt

/-! ## Division -/

/-- A sign that is put on a magnitude. -/
lemma signed_eq_ofInt (negative : Prop) [Decidable negative] (w : Word) :
    (if w = 0 then 0 else if negative then -w else w) =
      BitVec.ofInt 256 (if negative then -(w.toNat : Int) else w.toNat) := by
  have hzero : (-0 : Word) = 0 := by decide
  rw [apply_ite (BitVec.ofInt 256), BitVec.ofInt_neg, ofInt_toNat]
  split_ifs with h hneg <;> simp_all

lemma toInt_eq_magnitude (w : Word) :
    w.toInt = if w.sign = .minus then -(w.magnitude.toNat : Int) else w.magnitude.toNat := by
  rw [toNat_magnitude]
  simp only [sign_eq_minus]
  split_ifs <;> omega

lemma tdiv_eq (a b : Word) :
    a.toInt.tdiv b.toInt =
      if (a.sign == .minus) != (b.sign == .minus) then
        -((a.magnitude.toNat / b.magnitude.toNat : Nat) : Int)
      else (a.magnitude.toNat / b.magnitude.toNat : Nat) := by
  have hdiv (m n : Nat) : (m : Int).tdiv n = (m / n : Nat) := rfl
  rw [toInt_eq_magnitude a, toInt_eq_magnitude b]
  by_cases ha : a.sign = .minus <;> by_cases hb : b.sign = .minus <;>
    simp [ha, hb, Int.neg_tdiv, Int.tdiv_neg, hdiv]

lemma tmod_eq (a b : Word) :
    a.toInt.tmod b.toInt =
      if a.sign = .minus then -((a.magnitude.toNat % b.magnitude.toNat : Nat) : Int)
      else (a.magnitude.toNat % b.magnitude.toNat : Nat) := by
  have hmod (m n : Nat) : (m : Int).tmod n = (m % n : Nat) := rfl
  rw [toInt_eq_magnitude a, toInt_eq_magnitude b]
  by_cases ha : a.sign = .minus <;> by_cases hb : b.sign = .minus <;>
    simp [ha, hb, Int.neg_tmod, Int.tmod_neg, hmod]

/-- Only the smallest integer divided by one or minus one needs the sign bit for its magnitude. -/
lemma toNat_div_magnitude_lt (hzero : b.sign ≠ .zero)
    (hmin : ¬(a.magnitude = minValue ∧ b.magnitude = 1)) :
    (a.magnitude / b.magnitude).toNat < 2 ^ 255 := by
  have hle := natAbs_toInt_le a
  have hpos : b.toInt ≠ 0 := mt sign_eq_zero.2 hzero
  rw [← toNat_magnitude] at hle
  rw [BitVec.toNat_udiv]
  by_cases hone : b.magnitude.toNat = 1
  · have hne : a.magnitude.toNat ≠ 2 ^ 255 := fun h =>
      hmin ⟨BitVec.eq_of_toNat_eq h, BitVec.eq_of_toNat_eq hone⟩
    rw [hone, Nat.div_one]
    omega
  · have htwo : 2 ≤ b.magnitude.toNat := by
      rw [toNat_magnitude] at hone ⊢
      omega
    have hhalf : a.magnitude.toNat / b.magnitude.toNat ≤ a.magnitude.toNat / 2 :=
      Nat.div_le_div_left htwo (by decide)
    omega

/-- Division of the magnitudes gives the quotient rounded toward zero. -/
lemma signedDiv_eq (a b : Word) :
    signedDiv a b = BitVec.ofInt 256 (a.toInt.tdiv b.toInt) := by
  unfold signedDiv
  by_cases hzero : b.sign = .zero
  · rw [if_pos hzero, sign_eq_zero.1 hzero, Int.tdiv_zero]
    rfl
  rw [if_neg hzero, tdiv_eq]
  by_cases hmin : a.magnitude = minValue ∧ b.magnitude = 1
  · rw [if_pos hmin, hmin.1, hmin.2]
    cases (a.sign == .minus) != (b.sign == .minus) <;> decide
  · have hlt := toNat_div_magnitude_lt hzero hmin
    rw [if_neg hmin]
    dsimp only
    rw [dropSign_of_lt hlt, signed_eq_ofInt, BitVec.toNat_udiv]

/-- The remainder of the magnitudes with the sign of the dividend is what the division leaves. -/
lemma signedMod_eq (a b : Word) :
    signedMod a b = if b = 0 then 0 else BitVec.ofInt 256 (a.toInt.tmod b.toInt) := by
  unfold signedMod
  by_cases hzero : a.sign = .zero
  · rw [if_pos hzero, sign_eq_zero.1 hzero, Int.zero_tmod]
    split_ifs <;> rfl
  rw [if_neg hzero]
  by_cases hzero' : b.sign = .zero
  · rw [if_pos hzero', if_pos (toInt_eq_zero.1 (sign_eq_zero.1 hzero'))]
  · have hne : b.toInt ≠ 0 := mt sign_eq_zero.2 hzero'
    have hlt : (a.magnitude % b.magnitude).toNat < 2 ^ 255 := by
      have hpos : 0 < b.toInt.natAbs := by omega
      rw [BitVec.toNat_umod, toNat_magnitude, toNat_magnitude]
      exact (Nat.mod_lt _ hpos).trans_le (natAbs_toInt_le b)
    rw [if_neg hzero', if_neg (mt toInt_eq_zero.2 hne), tmod_eq]
    dsimp only
    rw [dropSign_of_lt hlt, signed_eq_ofInt, BitVec.toNat_umod]

/-- The remainder is small enough to be a signed word. -/
lemma toInt_signedMod (a b : Word) :
    (signedMod a b).toInt = if b = 0 then 0 else a.toInt.tmod b.toInt := by
  rw [signedMod_eq]
  split_ifs with h
  · rfl
  · have hne : b.toInt ≠ 0 := mt toInt_eq_zero.1 h
    have hle := natAbs_toInt_le b
    have hlt : (a.toInt.tmod b.toInt).natAbs < b.toInt.natAbs := by
      rw [Int.natAbs_tmod]
      exact Nat.mod_lt _ (Int.natAbs_pos.2 hne)
    rw [BitVec.toInt_ofInt, Int.bmod_eq_of_le] <;> omega

lemma signedDiv_mul_add_signedMod (h : b ≠ 0) : signedDiv a b * b + signedMod a b = a := by
  have hb : BitVec.ofInt 256 b.toInt = b := BitVec.ofInt_toInt
  calc signedDiv a b * b + signedMod a b
      = BitVec.ofInt 256 (a.toInt.tdiv b.toInt) * BitVec.ofInt 256 b.toInt +
          BitVec.ofInt 256 (a.toInt.tmod b.toInt) := by
        rw [signedDiv_eq, signedMod_eq, if_neg h, hb]
    _ = BitVec.ofInt 256 (a.toInt.tdiv b.toInt * b.toInt + a.toInt.tmod b.toInt) := by
        rw [BitVec.ofInt_add, BitVec.ofInt_mul]
    _ = a := by rw [Int.tdiv_mul_add_tmod, BitVec.ofInt_toInt]

/-! ## Sign extension -/

lemma getLsbD_mask {n : Nat} (h : n < 256) (i : Nat) :
    (((1 : Word) <<< n) - 1).getLsbD i = decide (i < n) := by
  have hpos := Nat.two_pow_pos n
  have hlt : 2 ^ n < 2 ^ 256 := Nat.pow_lt_pow_right (by decide) h
  have hshift : ((1 : Word) <<< n).toNat = 2 ^ n := by
    rw [BitVec.toNat_shiftLeft, Nat.shiftLeft_eq]
    show 1 * 2 ^ n % 2 ^ 256 = 2 ^ n
    rw [Nat.one_mul, Nat.mod_eq_of_lt hlt]
  have hle : 1 ≤ (1 : Word) <<< n := by
    rw [BitVec.le_def, hshift]
    exact hpos
  have hmask : (((1 : Word) <<< n) - 1).toNat = 2 ^ n - 1 := by
    rw [BitVec.toNat_sub_of_le hle, hshift]
    rfl
  rw [← BitVec.testBit_toNat, hmask, Nat.testBit_two_pow_sub_one]

/-- The mask replaces all bits above the sign bit by it. -/
lemma extend_eq_signExtend {n : Nat} (h : n < 256) (w : Word) :
    (if w.getLsbD n then w ||| ~~~(((1 : Word) <<< n) - 1) else w &&& (((1 : Word) <<< n) - 1)) =
      (w.setWidth (n + 1)).signExtend 256 := by
  refine BitVec.eq_of_getLsbD_eq fun i hi => ?_
  have hmask := getLsbD_mask h i
  have hvalue : ((w.setWidth (n + 1)).signExtend 256).getLsbD i =
      if i ≤ n then w.getLsbD i else w.getLsbD n := by
    rw [BitVec.getLsbD_signExtend, BitVec.msb_setWidth, BitVec.getLsbD_setWidth]
    simp only [hi, decide_true, Bool.true_and, Nat.lt_succ_iff, Nat.add_sub_cancel]
    split_ifs with hle
    · rw [decide_eq_true hle, Bool.true_and]
    · rfl
  rw [hvalue]
  by_cases hbit : w.getLsbD n = true
  · rw [if_pos hbit, BitVec.getLsbD_or, BitVec.getLsbD_not, hmask]
    rcases Nat.lt_trichotomy i n with hlt | rfl | hgt
    · simp [hlt, hlt.le]
    · simp [hbit]
    · simp [hi, hbit, hgt.not_gt, hgt.not_ge]
  · rw [if_neg hbit, BitVec.getLsbD_and, hmask]
    rcases Nat.lt_trichotomy i n with hlt | rfl | hgt
    · simp [hlt, hlt.le]
    · simpa using hbit
    · simpa [hgt.not_gt, hgt.not_ge] using hbit

lemma pow_eq_two_pow (n : Nat) : 256 ^ n = 2 ^ (8 * n) := by
  rw [pow_mul]
  rfl

/-- The low bytes are read as a two's complement integer; 32 bytes or more are the whole word. -/
lemma signExtend_eq (k w : Word) :
    signExtend k w =
      if k.toNat < 32 then BitVec.ofInt 256 ((w.toNat : Int).bmod (256 ^ (k.toNat + 1)))
      else w := by
  have hk : k < 31 ↔ k.toNat < 31 := Iff.rfl
  unfold signExtend
  by_cases hlt : k.toNat < 31
  · have hlt' : k.toNat < 32 := by omega
    have hbit : 8 * k.toNat + 7 < 256 := by omega
    have hvalue := extend_eq_signExtend hbit w
    rw [BitVec.signExtend, BitVec.toInt_setWidth] at hvalue
    rw [if_pos (hk.2 hlt), if_pos hlt', pow_eq_two_pow, Nat.mul_succ]
    exact hvalue
  · rw [if_neg (mt hk.1 hlt)]
    split_ifs with hlt'
    · obtain h31 : k.toNat = 31 := by omega
      rw [h31, pow_eq_two_pow]
      exact (BitVec.ofInt_toInt.symm.trans (congrArg _ (BitVec.toInt_eq_toNat_bmod w)))
    · rfl

/-! ## Bytes and shifts -/

lemma toCount_eq (w : Word) : w.toCount = min w.toNat Count.max := rfl

lemma toCount_lt_iff {n : Nat} (h : n ≤ Count.max) : w.toCount < n ↔ w.toNat < n := by
  rw [toCount_eq]
  omega

lemma toCount_of_lt {n : Nat} (h : n ≤ Count.max) (hw : w.toNat < n) : w.toCount = w.toNat := by
  rw [toCount_eq]
  omega

lemma byteAt_eq (i w : Word) :
    byteAt i w =
      if i.toNat < 32 then BitVec.ofNat 256 (w.toNat / 256 ^ (31 - i.toNat) % 256) else 0 := by
  have hmax : 32 ≤ Count.max := by decide
  unfold byteAt
  dsimp only
  split_ifs with h h' h'
  · apply BitVec.eq_of_toNat_eq
    rw [toCount_of_lt hmax h', BitVec.toNat_setWidth, BitVec.extractLsb'_toNat,
      Nat.shiftRight_eq_div_pow, ← pow_eq_two_pow, BitVec.toNat_ofNat]
  · exact absurd ((toCount_lt_iff hmax).1 h) h'
  · exact absurd ((toCount_lt_iff hmax).2 h') h
  · rfl

lemma shiftLeft_eq (s w : Word) : shiftLeft s w = BitVec.ofNat 256 (w.toNat * 2 ^ s.toNat) := by
  have hmax : 256 ≤ Count.max := by decide
  apply BitVec.eq_of_toNat_eq
  unfold shiftLeft
  dsimp only
  split_ifs with h
  · rw [toCount_of_lt hmax ((toCount_lt_iff hmax).1 h), BitVec.toNat_shiftLeft, Nat.shiftLeft_eq,
      BitVec.toNat_ofNat]
  · have hdvd : 2 ^ 256 ∣ w.toNat * 2 ^ s.toNat :=
      (pow_dvd_pow 2 (Nat.le_of_not_lt (mt (toCount_lt_iff hmax).2 h))).mul_left _
    rw [BitVec.toNat_ofNat, Nat.mod_eq_zero_of_dvd hdvd]
    rfl

lemma shiftRight_eq (s w : Word) : shiftRight s w = BitVec.ofNat 256 (w.toNat / 2 ^ s.toNat) := by
  have hmax : 256 ≤ Count.max := by decide
  have hlt : w.toNat / 2 ^ s.toNat < 2 ^ 256 := (Nat.div_le_self _ _).trans_lt w.isLt
  apply BitVec.eq_of_toNat_eq
  rw [BitVec.toNat_ofNat, Nat.mod_eq_of_lt hlt]
  unfold shiftRight
  dsimp only
  split_ifs with h
  · rw [toCount_of_lt hmax ((toCount_lt_iff hmax).1 h), BitVec.toNat_ushiftRight,
      Nat.shiftRight_eq_div_pow]
  · have hle : 2 ^ 256 ≤ 2 ^ s.toNat :=
      Nat.pow_le_pow_right (by decide) (Nat.le_of_not_lt (mt (toCount_lt_iff hmax).2 h))
    exact (Nat.div_eq_of_lt (w.isLt.trans_le hle)).symm

/-- Past the sign bit, only the sign is left. -/
lemma toInt_ediv_two_pow {n : Nat} (h : 255 ≤ n) (w : Word) :
    w.toInt / 2 ^ n = if w.toInt < 0 then -1 else 0 := by
  have hle : (2 : Int) ^ 255 ≤ 2 ^ n := pow_le_pow_right₀ (by decide) h
  have hlow := BitVec.le_toInt w
  have hhigh := BitVec.toInt_lt (x := w)
  split_ifs with hneg
  · exact Int.ediv_eq_neg_one_of_neg_of_le hneg (by omega)
  · exact Int.ediv_eq_zero_of_lt (by omega) (by omega)

lemma shiftRightSigned_eq (s w : Word) :
    shiftRightSigned s w = BitVec.ofInt 256 (w.toInt.fdiv (2 ^ s.toNat)) := by
  have hmax : 255 ≤ Count.max := by decide
  have hmin : Nat.min s.toCount 255 = min s.toNat 255 := by
    show min s.toCount 255 = _
    rw [toCount_eq]
    omega
  rw [Int.fdiv_eq_ediv_of_nonneg _ (by positivity),
    ← BitVec.ofInt_toInt (x := shiftRightSigned s w)]
  unfold shiftRightSigned
  rw [BitVec.toInt_sshiftRight, Int.shiftRight_eq_div_pow, hmin, Nat.cast_pow]
  rcases Nat.le_total s.toNat 255 with hle | hge
  · rw [min_eq_left hle]
    rfl
  · rw [min_eq_right hge, toInt_ediv_two_pow hge]
    exact congrArg _ (toInt_ediv_two_pow (le_refl 255) w)

end Evm.Word
