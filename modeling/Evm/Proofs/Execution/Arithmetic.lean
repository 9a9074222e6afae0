import Evm.Proofs.Execution.Operands
import Evm.Proofs.Word

/-!
# Signed and bit-level instructions

`BinaryOp.Computes` says of an instruction which function of the two topmost words it puts in their
place. That is its evaluation (`Exec.computes_eval`), whose laws on integers are those of
`Evm.Word`; together they say what the signed comparisons, divisions and remainders, the extension
of signs, the selection of bytes and the shifts do (`Exec.computes_signed`).
-/

namespace Evm

/-- Two words on top of the stack are replaced by a function of them, the topmost one being its first
argument. Nothing else changes. -/
def BinaryOp.Computes (op : BinaryOp) (g : Word → Word → Word) : Prop :=
  ∀ (σ : Type) (host : Host σ) (f : Frame) (s : σ) (a b : Word) (rest : List Word),
    f.stack.words = a :: b :: rest →
      ∃ stack : Stack, stack.words = g a b :: rest ∧
        ((Instruction.binary op).run host).run (f, s) = (.ok (), ({ f with stack }, s))

namespace Exec

lemma computes_eval (op : BinaryOp) : op.Computes op.eval := by
  intro σ host f s a b rest hwords
  have hheight : 2 ≤ f.stack.height := by
    rw [f.stack.height_eq, hwords]
    exact Nat.le_add_left 2 rest.length
  have hfirst : f.word 0 = a := by
    rw [Frame.word, hwords]
    rfl
  have hsecond : f.word 1 = b := by
    rw [Frame.word, hwords]
    rfl
  refine ⟨(f.stack.drop 1).setTop (op.eval a b), ?_, ?_⟩
  · show (f.stack.words.drop 1).set 0 _ = _
    rw [hwords]
    rfl
  · show (binary op).run (f, s) = _
    unfold binary
    rw [Program.run_bind_ok (operands2_run hheight s), hfirst, hsecond]
    rfl

lemma computes_of_eq {op : BinaryOp} {g : Word → Word → Word} (h : ∀ a b, op.eval a b = g a b) :
    op.Computes g := by
  have heq : op.eval = g := funext fun a => funext (h a)
  exact heq ▸ computes_eval op

end Exec

namespace Word

lemma ofBool_signedCompare_lt (a b : Word) :
    ofBool (signedCompare a b == .lt) = if a.toInt < b.toInt then 1 else 0 := by
  rw [signedCompare_eq]
  simp only [ofBool, beq_iff_eq, compare_lt_iff_lt]

lemma ofBool_signedCompare_gt (a b : Word) :
    ofBool (signedCompare a b == .gt) = if b.toInt < a.toInt then 1 else 0 := by
  rw [signedCompare_eq]
  simp only [ofBool, beq_iff_eq, compare_gt_iff_gt]

end Word

open Word in
/-- Signed operations are those of the integers that the words stand for in two's complement: they
compare, and they divide toward zero, the remainder taking the sign of the dividend. A divisor of
zero gives zero, and the one quotient that is no word wraps around. The instructions put the results
in place of their operands, whatever the operands: signs are extended from a byte of the word, bytes
are counted from the most significant one, and shifts multiply and divide by powers of two, rounding
down. -/
theorem Exec.computes_signed :
    (∀ a b : Word, signedCompare a b = compare a.toInt b.toInt) ∧
    (∀ a b : Word, signedDiv a b = BitVec.ofInt 256 (a.toInt.tdiv b.toInt)) ∧
    (∀ a : Word, signedDiv a 0 = 0) ∧
    signedDiv (BitVec.intMin 256) (-1) = BitVec.intMin 256 ∧
    (∀ a b : Word, (signedMod a b).toInt = if b = 0 then 0 else a.toInt.tmod b.toInt) ∧
    (∀ a b : Word, b = 0 ∨ signedDiv a b * b + signedMod a b = a) ∧
    BinaryOp.slt.Computes (fun a b => if a.toInt < b.toInt then 1 else 0) ∧
    BinaryOp.sgt.Computes (fun a b => if b.toInt < a.toInt then 1 else 0) ∧
    BinaryOp.sdiv.Computes (fun a b => BitVec.ofInt 256 (a.toInt.tdiv b.toInt)) ∧
    BinaryOp.smod.Computes
      (fun a b => if b = 0 then 0 else BitVec.ofInt 256 (a.toInt.tmod b.toInt)) ∧
    BinaryOp.signExtend.Computes (fun k w =>
      if k.toNat < 32 then BitVec.ofInt 256 ((w.toNat : Int).bmod (256 ^ (k.toNat + 1)))
      else w) ∧
    BinaryOp.byte.Computes (fun i w =>
      if i.toNat < 32 then BitVec.ofNat 256 (w.toNat / 256 ^ (31 - i.toNat) % 256) else 0) ∧
    BinaryOp.shl.Computes (fun s w => BitVec.ofNat 256 (w.toNat * 2 ^ s.toNat)) ∧
    BinaryOp.shr.Computes (fun s w => BitVec.ofNat 256 (w.toNat / 2 ^ s.toNat)) ∧
    BinaryOp.sar.Computes (fun s w => BitVec.ofInt 256 (w.toInt.fdiv (2 ^ s.toNat))) := by
  refine ⟨signedCompare_eq, signedDiv_eq, fun a => ?_, ?_, toInt_signedMod, fun a b => ?_,
    computes_of_eq ofBool_signedCompare_lt, computes_of_eq ofBool_signedCompare_gt,
    computes_of_eq signedDiv_eq, computes_of_eq fun a b => ?_, computes_of_eq signExtend_eq,
    computes_of_eq byteAt_eq, computes_of_eq shiftLeft_eq, computes_of_eq shiftRight_eq,
    computes_of_eq shiftRightSigned_eq⟩
  · rw [signedDiv_eq]
    show BitVec.ofInt 256 (a.toInt.tdiv 0) = 0
    rw [Int.tdiv_zero]
    rfl
  · decide
  · exact Classical.or_iff_not_imp_left.2 signedDiv_mul_add_signedMod
  · show (if b = 0 then 0 else signedMod a b) = _
    rw [signedMod_eq]
    split_ifs <;> rfl

end Evm
