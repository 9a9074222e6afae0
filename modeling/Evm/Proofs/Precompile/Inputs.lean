import Evm.Proofs.Precompile.ModExp

/-!
# What precompiled contracts read

Signer recovery, the arithmetic on points and modular exponentiation read their input as if it went
on with zero bytes for ever, and only a part of it. The part that an exponentiation reads is laid
down by the header, and its operands may begin anywhere, also past the end of the input.
-/

namespace Evm.Precompile

/-- The contract reads the first bytes of its input, which goes on with zero bytes for ever. How many
it reads may depend on the input. -/
structure Reads (extent : Bytes → Nat) (run : Bytes → Nat → Except Error Output) : Prop where
  /-- Zero bytes at the end are there anyway. -/
  extended : ∀ x k gasLimit, run (x ++ Array.replicate k 0) gasLimit = run x gasLimit
  /-- What comes after the part that is read does not matter. -/
  rest : ∀ x y gasLimit, run (x.window 0 (extent x) ++ y) gasLimit = run x gasLimit

/-- It is enough that inputs which agree on that part are answered alike. -/
lemma Reads.of_congr {extent : Bytes → Nat} {run : Bytes → Nat → Except Error Output}
    (h : ∀ x y, x.window 0 (extent x) = y.window 0 (extent x) → run x = run y) :
    Reads extent run where
  extended x k gasLimit := by
    rw [h x _ (Bytes.window_zeros_append x k 0 _).symm]
  rest x y gasLimit := by
    rw [h x _ (Bytes.window_window_append x y _).symm]

/-! ## Inputs of fixed length -/

variable {x y : Bytes}

lemma EcRecover.run_congr (keccak : Bytes → Bytes) (scheme : SignatureScheme)
    (h : x.window 0 inputSize = y.window 0 inputSize) :
    run keccak scheme x = run keccak scheme y := by
  funext gasLimit
  unfold run
  rw [Bytes.fitRight_eq_window, Bytes.fitRight_eq_window, h]

lemma Bn254.add_congr (curve : PairingCurve) (price : Nat)
    (h : x.window 0 addSize = y.window 0 addSize) : add curve price x = add curve price y := by
  funext gasLimit
  unfold add
  rw [Bytes.fitRight_eq_window, Bytes.fitRight_eq_window, h]

lemma Bn254.mul_congr (curve : PairingCurve) (price : Nat)
    (h : x.window 0 mulSize = y.window 0 mulSize) : mul curve price x = mul curve price y := by
  funext gasLimit
  unfold mul
  rw [Bytes.fitRight_eq_window, Bytes.fitRight_eq_window, h]

/-! ## All of them -/

/-- Inputs are extended with zero bytes, and read no further than the contract needs. -/
theorem runWith_reads (lib : Library) (features : Features) :
    Reads (fun _ => 128) (runWith lib features ecRecover) ∧
      Reads (fun _ => 128) (runWith lib features bnAdd) ∧
      Reads (fun _ => 96) (runWith lib features bnMul) ∧
      Reads (fun x => 96 + (x.window 0 32).toNat + (x.window 32 32).toNat + (x.window 64 32).toNat)
        (runWith lib features modExp) := by
  refine ⟨.of_congr fun x y h => ?_, .of_congr fun x y h => ?_, .of_congr fun x y h => ?_,
    .of_congr fun x y h => ?_⟩
  · exact EcRecover.run_congr _ _ h
  · exact Bn254.add_congr _ _ h
  · exact Bn254.mul_congr _ _ h
  · funext gasLimit
    unfold runWith
    dsimp only
    split
    · exact congrFun (ModExp.run_congr h) gasLimit
    · exact congrFun (ModExp.run_congr h) gasLimit

end Evm.Precompile
