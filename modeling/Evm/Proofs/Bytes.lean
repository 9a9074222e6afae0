import Mathlib.Tactic
import Evm.Bytes

/-!
# Numbers as bytes

A number that fits is spelled by the bytes that are written for it, so different numbers have
different spellings.
-/

namespace Evm.Bytes

lemma toNat_push (b : Bytes) (x : UInt8) :
    toNat (b.push x) = toNat b * 256 + x.toNat := by
  simp only [toNat, Array.foldl_push]

lemma window_succ (b : Bytes) (start n : Nat) :
    window b start (n + 1) = (window b start n).push (b.getD (start + n) 0) := by
  unfold window
  rw [Array.ofFn_succ]
  rfl

/-- A window is what there is of it, and zero bytes for the rest. -/
lemma window_eq_append (b : Bytes) (start len : Nat) :
    window b start len = b.extract start (start + len) ++
      Array.replicate (len - (b.extract start (start + len)).size) 0 := by
  refine Array.ext (by simp; omega) fun i hi _ => ?_
  rw [getElem_window, Array.getElem_append, Array.getD_eq_getD_getElem?]
  simp only [size_window] at hi
  split_ifs with hlt
  · rw [Array.getElem_extract]
    simp only [Array.size_extract] at hlt
    rw [Array.getElem?_eq_getElem (by omega), Option.getD_some]
  · rw [Array.getElem_replicate]
    simp only [Array.size_extract] at hlt
    rw [Array.getElem?_eq_none (by omega), Option.getD_none]

/-- Where two strings agree on their first bytes, their windows there agree. -/
lemma window_congr {x y : Bytes} {n start len : Nat} (h : window x 0 n = window y 0 n)
    (hle : start + len ≤ n) : window x start len = window y start len := by
  unfold window
  congr 1
  funext i
  have hget := congrArg (fun b : Bytes => b.getD (start + i) 0) h
  have hlt : start + i < n := by omega
  simpa [hlt] using hget

lemma window_zeros_append (b : Bytes) (k start len : Nat) :
    window (b ++ Array.replicate k 0) start len = window b start len := by
  unfold window
  congr 1
  funext i
  simp only [Array.getD_eq_getD_getElem?, Array.getElem?_append, Array.getElem?_replicate]
  split_ifs with hlt hk
  · rfl
  · rw [Array.getElem?_eq_none (by omega)]
    rfl
  · rw [Array.getElem?_eq_none (by omega)]

/-- What comes after a window from the start does not show in it. -/
lemma window_window_append (x y : Bytes) (n : Nat) :
    window (window x 0 n ++ y) 0 n = window x 0 n := by
  refine Array.ext (by simp) fun i hi _ => ?_
  have hlt : i < n := by simpa using hi
  simp [Array.getElem?_append, hlt]

lemma extract_window (b : Bytes) (start len n : Nat) :
    (window b start len).extract 0 n = window b start (min n len) := by
  refine Array.ext (by simp) fun i hi _ => ?_
  simp

/-- The first bytes of a window are a window. -/
lemma take_window (b : Bytes) (start len : Nat) {n : Nat} (h : n ≤ len) :
    (window b start len).take n = window b start n := by
  rw [Array.take_eq_extract, extract_window, min_eq_left h]

/-- What follows the first bytes of a window is a window. -/
lemma drop_window (b : Bytes) (start len n : Nat) :
    (window b start len).drop n = window b (start + n) (len - n) := by
  refine Array.ext (by simp) fun i _ _ => ?_
  simp [Nat.add_assoc]

/-- Bytes past the end are taken for zero whether the string is long enough or padded. -/
lemma fitRightFrom_eq_window (b : Bytes) (start len : Nat) :
    fitRightFrom b start len = window b start len := by
  have hdrop : b.extract start (start + len) = (b.drop start).extract 0 len := by
    refine Array.ext (by simp) fun i _ _ => ?_
    simp
  rw [window_eq_append, hdrop]
  unfold fitRightFrom fitRight fit
  split
  -- Enough bytes are there, so that none has to be added.
  · rename_i hle
    have hsize : ((b.drop start).extract 0 len).size = len := by
      rw [Array.size_extract]
      omega
    rw [hsize, Nat.sub_self, Array.replicate_zero, Array.append_empty]
  -- All there is belongs to the window, and zero bytes make up for the rest.
  · rename_i hlt
    have hall : (b.drop start).extract 0 len = b.drop start := by
      apply Array.extract_eq_self_of_le
      omega
    rw [hall]
    rfl

lemma fitRight_eq_window (b : Bytes) (len : Nat) : fitRight b len = window b 0 len := by
  rw [← fitRightFrom_eq_window]
  unfold fitRightFrom
  simp

lemma window_drop (b : Bytes) (n start len : Nat) :
    window (b.drop n) start len = window b (n + start) len := by
  unfold window
  congr 1
  funext i
  simp only [Array.drop_eq_extract, Array.getD_eq_getD_getElem?, Array.getElem?_extract,
    Nat.add_assoc]
  split
  · rfl
  · rw [Array.getElem?_eq_none (by omega)]

/-- Zero bytes in front do not change the number. -/
lemma toNat_zeros_append (n : Nat) (b : Bytes) : toNat (Array.replicate n 0 ++ b) = toNat b := by
  have hzeros : toNat (Array.replicate n 0) = 0 := by
    induction n with
    | zero => rfl
    | succ n ih => rw [Array.replicate_succ, toNat_push, ih]; rfl
  unfold toNat at hzeros ⊢
  rw [Array.foldl_append, hzeros]

lemma size_fitLeft (b : Bytes) (len : Nat) : (fitLeft b len).size = len := by
  unfold fitLeft fit
  split
  · rw [Array.size_extract]
    omega
  · rw [pad, Array.size_append, Array.size_replicate]
    omega

/-- A string that is short enough keeps its number when it is made to fit. -/
lemma toNat_fitLeft {b : Bytes} {len : Nat} (h : b.size ≤ len) : (fitLeft b len).toNat = b.toNat := by
  unfold fitLeft fit
  split
  · rw [Array.extract_eq_self_of_le (by omega)]
  · exact toNat_zeros_append _ b

/-- A window spells the sum of its bytes by their places, the bytes past the end being zero. -/
lemma toNat_window (b : Bytes) (start n : Nat) :
    toNat (window b start n) =
      ∑ i ∈ Finset.range n, (b.getD (start + i) 0).toNat * 256 ^ (n - 1 - i) := by
  induction n with
  | zero => rfl
  | succ n ih =>
    rw [window_succ, toNat_push, ih, Finset.sum_range_succ, Finset.sum_mul]
    congr 1
    · refine Finset.sum_congr rfl fun i hi => ?_
      have hlt := Finset.mem_range.1 hi
      rw [mul_assoc, ← pow_succ]
      congr 2
      omega
    · simp

/-- A window is a number below the power of its length. -/
lemma toNat_window_lt (b : Bytes) (start n : Nat) : toNat (window b start n) < 256 ^ n := by
  induction n with
  | zero => exact Nat.one_pos
  | succ n ih =>
    have hbyte := (b.getD (start + n) 0).toNat_lt
    rw [window_succ, toNat_push, pow_succ]
    omega

/-- A word holds the number that up to 32 bytes spell. -/
lemma toNat_toWord_window (b : Bytes) (start : Nat) {n : Nat} (h : n ≤ 32) :
    (toWord (window b start n)).toNat =
      ∑ i ∈ Finset.range n, (b.getD (start + i) 0).toNat * 256 ^ (n - 1 - i) := by
  have hlt : toNat (window b start n) < 2 ^ 256 :=
    (toNat_window_lt b start n).trans_le (Nat.pow_le_pow_right (by decide) h)
  rw [toWord, BitVec.toNat_ofNat, Nat.mod_eq_of_lt hlt, toNat_window]

/-- The last byte is the number modulo 256, and the ones before it spell the rest. -/
lemma ofNat_succ (len n : Nat) : ofNat (len + 1) n = (ofNat len (n / 256)).push (UInt8.ofNat n) := by
  have hshift (i : Fin len) :
      n >>> (8 * (len - i)) = (n / 256) >>> (8 * (len - 1 - i)) := by
    have hpow : 256 = 2 ^ 8 := rfl
    rw [hpow, ← Nat.shiftRight_eq_div_pow, ← Nat.shiftRight_add]
    congr 1
    omega
  unfold ofNat
  rw [Array.ofFn_succ]
  simp only [Fin.val_castSucc, Nat.add_sub_cancel, hshift, Nat.sub_self, Nat.mul_zero,
    Nat.shiftRight_zero]

/-- The bytes of a number spell it, as far as they go. -/
lemma toNat_ofNat (len n : Nat) : toNat (ofNat len n) = n % 256 ^ len := by
  induction len generalizing n with
  | zero =>
    rw [pow_zero, Nat.mod_one]
    rfl
  | succ len ih =>
    have hmod : n % 256 ^ (len + 1) = n % 256 + 256 * (n / 256 % 256 ^ len) := by
      rw [pow_succ', Nat.mod_mul]
    rw [ofNat_succ, toNat_push, ih, UInt8.toNat_ofNat', hmod]
    omega

lemma toNat_ofNat_of_lt {len n : Nat} (h : n < 256 ^ len) : toNat (ofNat len n) = n := by
  rw [toNat_ofNat, Nat.mod_eq_of_lt h]

/-- A string is the only one of its length that spells its number. -/
lemma ofNat_toNat (b : Bytes) : ofNat b.size b.toNat = b := by
  induction h : b.size generalizing b with
  | zero =>
    rw [Array.eq_empty_of_size_eq_zero h]
    rfl
  | succ len ih =>
    obtain ⟨b, x, rfl⟩ := Array.exists_push_of_size_eq_add_one h
    have hsize : b.size = len := by
      rw [Array.size_push] at h
      omega
    have hhigh : (toNat b * 256 + x.toNat) / 256 = toNat b := by
      have hx := x.toNat_lt
      omega
    have hlow : UInt8.ofNat (toNat b * 256 + x.toNat) = x := by
      apply UInt8.toNat_inj.1
      have hx := x.toNat_lt
      rw [UInt8.toNat_ofNat']
      omega
    rw [toNat_push, ofNat_succ, hhigh, hlow, ih b hsize]

lemma toNat_lt (b : Bytes) : toNat b < 256 ^ b.size := by
  have hmod := toNat_ofNat b.size (toNat b)
  rw [ofNat_toNat] at hmod
  exact hmod.trans_lt (Nat.mod_lt _ (Nat.pow_pos (by decide)))

lemma ofNat_injOn {len n n' : Nat} (h : n < 256 ^ len) (h' : n' < 256 ^ len)
    (heq : ofNat len n = ofNat len n') : n = n' := by
  rw [← toNat_ofNat_of_lt h, heq, toNat_ofNat_of_lt h']

lemma ofWord_injective : Function.Injective ofWord := fun w w' h =>
  BitVec.eq_of_toNat_eq (ofNat_injOn w.isLt w'.isLt h)

lemma ofAddress_injective : Function.Injective ofAddress := fun a a' h =>
  BitVec.eq_of_toNat_eq (ofNat_injOn a.isLt a'.isLt h)

end Evm.Bytes
