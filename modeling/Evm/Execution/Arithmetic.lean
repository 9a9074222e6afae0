import Evm.Execution.Basic

/-!
# Arithmetic, comparison and bit operations

Instructions that replace words on the stack by a function of them.
-/

namespace Evm

/-- The function that the instruction computes. -/
def UnaryOp.eval : UnaryOp → Word → Word
  | isZero, a => Word.ofBool (a == 0)
  | not, a => ~~~a

/-- The function that the instruction computes, the first argument being the topmost word. -/
def BinaryOp.eval : BinaryOp → Word → Word → Word
  | add, a, b => a + b
  | mul, a, b => a * b
  | sub, a, b => a - b
  | div, a, b => a / b
  | sdiv, a, b => Word.signedDiv a b
  | mod, a, b => if b = 0 then 0 else a % b
  | smod, a, b => if b = 0 then 0 else Word.signedMod a b
  | signExtend, a, b => Word.signExtend a b
  | lt, a, b => Word.ofBool (a < b)
  | gt, a, b => Word.ofBool (b < a)
  | slt, a, b => Word.ofBool (Word.signedCompare a b == .lt)
  | sgt, a, b => Word.ofBool (Word.signedCompare a b == .gt)
  | eq, a, b => Word.ofBool (a == b)
  | and, a, b => a &&& b
  | or, a, b => a ||| b
  | xor, a, b => a ^^^ b
  | byte, a, b => Word.byteAt a b
  | shl, a, b => Word.shiftLeft a b
  | shr, a, b => Word.shiftRight a b
  | sar, a, b => Word.shiftRightSigned a b

/-- The function that the instruction computes, the first argument being the topmost word. -/
def TernaryOp.eval : TernaryOp → Word → Word → Word → Word
  | addMod, a, b, n => Word.addMod a b n
  | mulMod, a, b, n => Word.mulMod a b n

namespace Exec

variable {σ : Type}

/-- Replaces the top by a function of it. -/
def unary (op : UnaryOp) : Exec σ Unit := do
  setTop (op.eval (← operand))

/-- Replaces two words by a function of them. -/
def binary (op : BinaryOp) : Exec σ Unit := do
  let (a, b) ← operands2
  setTop (op.eval a b)

/-- Replaces three words by a function of them. -/
def ternary (op : TernaryOp) : Exec σ Unit := do
  let (a, b, c) ← operands3
  setTop (op.eval a b c)

/-- Replaces base and exponent by the power. -/
def exp : Exec σ Unit := do
  let (base, exponent) ← operands2
  chargePrice (Gas.exp (← frame).features exponent)
  setTop (Word.pow base exponent)

end Exec

end Evm
