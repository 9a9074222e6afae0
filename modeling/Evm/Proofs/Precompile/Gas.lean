import Evm.Proofs.Precompile.ModExp

/-!
# What precompiled contracts cost

A contract may look at its input before it charges and charge more than once. Still all that the gas
decides is whether there is enough of it: below the price of the input the contract fails for want
of gas, and from there on its result is always the same.
-/

namespace Evm.Precompile

variable {α β : Type}

/-! ## Answers -/

/-- The result is of that kind, or a failure that is no want of gas. -/
def Answers (P : α → Prop) : Except Error α → Prop
  | .ok a => P a
  | .error e => e ≠ .outOfGas

namespace Answers

variable {P : α → Prop} {Q : β → Prop} {x : Except Error α}

lemma pure {a : α} (h : P a) : Answers P (Pure.pure a) := h

lemma bind {f : α → Except Error β} (hx : Answers P x) (hf : ∀ a, P a → Answers Q (f a)) :
    Answers Q (x >>= f) := by
  cases x with
  | error e => exact hx
  | ok a => exact hf a hx

lemma ite {c : Prop} [Decidable c] {y : Except Error α} (hx : Answers P x) (hy : Answers P y) :
    Answers P (if c then x else y) := by
  split
  · exact hx
  · exact hy

end Answers

/-- The run takes that much gas: with less of it there is a want of gas, and with any more of it one
and the same result, which if it is an output says that this was used. -/
structure Costs (price : Nat) (run : Nat → Except Error Output) : Prop where
  refuses : ∀ gasLimit < price, run gasLimit = .error .outOfGas
  settles : ∃ result, Answers (fun o => o.gasUsed = price) result ∧
    ∀ gasLimit, price ≤ gasLimit → run gasLimit = result

section

variable {price : Nat} {rest : Except Error Output}

/-- A failure that charges nothing. -/
lemma Costs.free {e : Error} (he : e ≠ .outOfGas) : Costs 0 fun _ => .error e where
  refuses _ hlt := absurd hlt (Nat.not_lt_zero _)
  settles := ⟨.error e, he, fun _ _ => rfl⟩

end

/-! ## The contracts -/

namespace Blake2

/-- The rounds are paid for if the length is right. -/
def due (input : Bytes) : Nat := if input.size = inputSize then rounds input else 0

end Blake2

namespace ModExp

variable {power : Bytes → Bytes → Bytes → Bytes} {minimum : Nat} {price : Nat → Nat → Nat → Nat → Nat}

/-- The lengths and the head of the exponent make the price, and there is nothing but the minimum to
pay if the lengths are unusable or there is nothing to compute. -/
def due (minimum : Nat) (price : Nat → Nat → Nat → Nat → Nat) (input : Bytes) : Nat :=
  match lengths input with
  | .ok (some l) =>
    price l.base l.exponent l.modulus (exponentHead (input.drop headerSize) l)
  | _ => minimum

end ModExp

namespace Bn254

variable (curve : PairingCurve)

end Bn254

/-! ## All of them -/

/-- The price of an input. -/
def price (features : Features) (p : Precompile) (input : Bytes) : Nat :=
  let cheap := features.has .eip1108
  match p with
  | ecRecover => EcRecover.price
  | sha256 => linearPrice 60 12 input.size
  | ripemd160 => linearPrice 600 120 input.size
  | identity => linearPrice 15 3 input.size
  | modExp =>
    if features.has .eip2565 then ModExp.due ModExp.secondMinimum ModExp.secondPrice input
    else ModExp.due 0 ModExp.firstPrice input
  | bnAdd => if cheap then 150 else 500
  | bnMul => if cheap then 6000 else 40000
  | bnPairing =>
    let pairs := input.size / Bn254.pairSize
    if cheap then pairs * 34000 + 45000 else pairs * 80000 + 100000
  | blake2f => Blake2.due input
  | pointEvaluation => PointEvaluation.price

end Evm.Precompile
