import Evm.Crypto.ModularPower
import Evm.Proofs.Bytes

/-!
# Modular powers are powers

Squaring and multiplying, bit by bit of an exponent or byte by byte, and taking the remainder in
between gives the remainder of the power.
-/

namespace Evm

/-- Each bit of the exponent squares the base for the bits above it. -/
lemma Word.powMod_eq (b e m : Nat) : powMod b e m = b ^ e % m := by
  have hsquare (b k : Nat) : (b * b % m) ^ k ≡ b ^ (2 * k) [MOD m] := by
    rw [pow_mul, pow_two]
    exact (Nat.mod_modEq _ m).pow k
  fun_induction powMod b e m with
  | case1 b => rw [pow_zero]
  | case2 b e he half heven ih =>
    have htwice : 2 * (e / 2) = e := by omega
    exact htwice ▸ ih.trans (hsquare b _)
  | case3 b e he half hodd ih =>
    have htwice : 2 * (e / 2) + 1 = e := by omega
    have hhalf : half ≡ b ^ (2 * (e / 2)) [MOD m] := by
      rw [show half = _ from ih]
      exact (Nat.mod_modEq _ m).trans (hsquare b _)
    rw [← htwice, pow_succ']
    exact hhalf.mul_left b

namespace Crypto.ModularPower

lemma repeat_sq_mod (m k : Nat) (x : Nat) :
    Nat.repeat (fun x => x * x % m) k x ≡ x ^ 2 ^ k [MOD m] := by
  induction k with
  | zero => exact congrArg (· % m) (pow_one x).symm
  | succ k ih =>
    rw [pow_succ, pow_mul, pow_two]
    exact (Nat.mod_modEq _ m).trans (ih.mul ih)

lemma pow256_modEq (x m : Nat) : pow256 x m ≡ x ^ 256 [MOD m] := repeat_sq_mod m 8 x

/-- The power grows with each further byte of the exponent. -/
lemma power_eq (b : Nat) (e : Bytes) (m : Nat) :
    power b e m = if m = 0 then 0 else b ^ e.toNat % m := by
  have hstep (n : Nat) (x : UInt8) :
      pow256 (b ^ n % m) m * Word.powMod b x.toNat m % m = b ^ (n * 256 + x.toNat) % m := by
    rw [Word.powMod_eq, pow_add, pow_mul]
    have hhigh : pow256 (b ^ n % m) m ≡ (b ^ n) ^ 256 [MOD m] :=
      (pow256_modEq _ m).trans ((Nat.mod_modEq _ m).pow 256)
    exact hhigh.mul (Nat.mod_modEq _ m)
  unfold power
  congr 1
  change e.foldl (fun acc x => pow256 acc m * Word.powMod b x.toNat m % m) (b ^ 0 % m) =
    b ^ e.foldl (fun n x => n * 256 + x.toNat) 0 % m
  refine Array.foldl_hom (fun n => b ^ n % m) ?_
  exact hstep

end Crypto.ModularPower

end Evm
