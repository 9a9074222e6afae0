import Evm.Proofs.Crypto.ModularPower
import Evm.Proofs.Precompile.ModExp

/-!
# What an exponentiation gives

The operands are what the header says they are, cut out of an input that goes on with zero bytes. As
long as their lengths can be counted together, there is an answer as soon as there is gas for it, and
this answer is the power, in as many bytes as the modulus has (`ModExp.run_powers`).
-/

namespace Evm.Precompile.ModExp

/-- The power `b ^ e` modulo `m`, zero for `m = 0`. -/
def powerModulo (b e m : Nat) : Nat := if m = 0 then 0 else b ^ e % m

/-- What is asked of the library: the power, in no more bytes than the modulus has. -/
structure Computes (power : Bytes → Bytes → Bytes → Bytes) : Prop where
  size_le : ∀ base exponent modulus, (power base exponent modulus).size ≤ modulus.size
  toNat_eq : ∀ base exponent modulus, (power base exponent modulus).toNat =
    powerModulo base.toNat exponent.toNat modulus.toNat

/-- The library of the machine does what is asked. -/
lemma computes_powerBytes : Computes Crypto.ModularPower.powerBytes where
  size_le _ _ _ := by
    rw [Crypto.ModularPower.powerBytes, Bytes.size_ofNat]
  toNat_eq base exponent modulus := by
    have hlt : powerModulo base.toNat exponent.toNat modulus.toNat < 256 ^ modulus.size := by
      unfold powerModulo
      split_ifs with hzero
      · exact Nat.pow_pos (by decide)
      · exact (Nat.mod_lt _ (Nat.pos_of_ne_zero hzero)).trans (Bytes.toNat_lt modulus)
    rw [Crypto.ModularPower.powerBytes, Crypto.ModularPower.power_eq]
    exact Bytes.toNat_ofNat_of_lt hlt

/-! ## Lengths and operands -/

/-- The lengths in the header, whether they can be counted or not. -/
def headerLengths (input : Bytes) : Lengths where
  base := (input.window 0 32).toNat
  exponent := (input.window 32 32).toNat
  modulus := (input.window 64 32).toNat

/-- Operands of these lengths, one after the other behind the header. -/
def operands (input : Bytes) (l : Lengths) : Operands where
  base := input.window headerSize l.base
  exponent := input.window (headerSize + l.base) l.exponent
  modulus := input.window (headerSize + l.base + l.exponent) l.modulus

/-- The lengths of the operands can be counted together. -/
def Countable (input : Bytes) : Prop :=
  let l := headerLengths input
  l.base + l.exponent + l.modulus < 2 ^ 64

variable {input : Bytes}

/-- Countable lengths are read as they are, unless there is nothing to compute. -/
lemma lengths_of_countable (h : Countable input) :
    lengths input = .ok (if (headerLengths input).base = 0 ∧ (headerLengths input).modulus = 0
      then none else some (headerLengths input)) := by
  have hmax := Count.max_eq
  unfold Countable headerLengths at h
  unfold lengths headerLengths
  rw [announced_eq, announced_eq, announced_eq]
  generalize (input.window 0 32).toNat = base at h ⊢
  generalize (input.window 32 32).toNat = exponent at h ⊢
  generalize (input.window 64 32).toNat = modulus at h ⊢
  dsimp only at h ⊢
  rw [if_neg (by omega), if_neg (by omega)]
  split_ifs
  · rfl
  · omega
  · rfl

/-- Cutting up loses nothing as long as the length of it all is counted in full. -/
lemma split_eq {l : Lengths} (h : l.base + l.exponent + l.modulus < 2 ^ 64) :
    split (input.drop headerSize) l = operands input l := by
  have hmax := Count.max_eq
  have hinner : Count.satAdd l.base l.exponent = l.base + l.exponent := Count.satAdd_eq (by omega)
  have htotal : l.total = l.base + l.exponent + l.modulus := by
    rw [Lengths.total, hinner, Count.satAdd_eq (by omega)]
  unfold split operands
  dsimp only
  rw [Bytes.fitRight_eq_window, Bytes.window_drop, htotal, Bytes.drop_window,
    Bytes.take_window _ _ _ (by omega), Bytes.take_window _ _ _ (by omega), Bytes.drop_window]
  congr 2
  omega

/-! ## The answer -/

/-- The power of the operands. -/
def Operands.power (x : Operands) : Nat :=
  powerModulo x.base.toNat x.exponent.toNat x.modulus.toNat

/-- The output for operands of these lengths is their power, in as many bytes as the modulus has. What
it has cost is the price for the lengths and for the number in the first bytes of the exponent. -/
structure Powers (price : Nat → Nat → Nat → Nat → Nat) (x : Operands) (l : Lengths) (o : Output) :
    Prop where
  gasUsed : o.gasUsed = price l.base l.exponent l.modulus
    (Bytes.toNat (x.exponent.take (min l.exponent 32)))
  bytes : o.bytes = Bytes.ofNat l.modulus x.power
  toNat : o.bytes.toNat = x.power

variable {power : Bytes → Bytes → Bytes → Bytes} {minimum : Nat}
  {price : Nat → Nat → Nat → Nat → Nat} {l : Lengths}

/-- The output for a price, whether there is gas for it or not. -/
def answer (power : Bytes → Bytes → Bytes → Bytes) (price : Nat → Nat → Nat → Nat → Nat)
    (x : Operands) (l : Lengths) : Output where
  gasUsed := price l.base l.exponent l.modulus (Bytes.toNat (x.exponent.take (min l.exponent 32)))
  bytes := (power x.base x.exponent x.modulus).fitLeft l.modulus

/-- The library gives all the digits of the power, and zero bytes make up for those that are missing
in front. -/
lemma powers_answer (hpower : Computes power) {x : Operands} (hsize : x.modulus.size = l.modulus) :
    Powers price x l (answer power price x l) := by
  have hle : (power x.base x.exponent x.modulus).size ≤ l.modulus := hsize ▸ hpower.size_le _ _ _
  have htoNat : ((power x.base x.exponent x.modulus).fitLeft l.modulus).toNat = x.power := by
    rw [Bytes.toNat_fitLeft hle, hpower.toNat_eq, Operands.power]
  have hfit := Bytes.ofNat_toNat ((power x.base x.exponent x.modulus).fitLeft l.modulus)
  rw [Bytes.size_fitLeft, htoNat] at hfit
  exact ⟨rfl, hfit.symm, htoNat⟩

lemma charge_bind (price gasLimit : Nat) (rest : Except Error Output) :
    (charge price gasLimit >>= fun _ => rest) =
      if gasLimit < price then .error .outOfGas else rest := by
  unfold charge
  split <;> rfl

/-- Known operands are raised as soon as there is gas for it. -/
lemma raise_eq (h : l.base + l.exponent + l.modulus < 2 ^ 64) (gasLimit : Nat) :
    raise power price (input.drop headerSize) l gasLimit =
      if gasLimit < (answer power price (operands input l) l).gasUsed then .error .outOfGas
      else .ok (answer power price (operands input l) l) := by
  have hhead : Bytes.toNat ((operands input l).exponent.take (min l.exponent 32)) =
      exponentHead (input.drop headerSize) l := by
    rw [exponentHead_eq, operands, Bytes.take_window _ _ _ (min_le_left _ _)]
  unfold raise answer
  rw [split_eq h, hhead]
  exact charge_bind _ _ _

/-- There is an answer as soon as there is gas for it. Where there is nothing to compute, the price is
the minimum and the modulus is empty. -/
lemma run_eq (hmin : ∀ b e m h, minimum ≤ price b e m h) (hempty : ∀ e h, price 0 e 0 h = minimum)
    (h : Countable input) (gasLimit : Nat) :
    run power minimum price input gasLimit =
      if gasLimit < (answer power price (operands input (headerLengths input))
        (headerLengths input)).gasUsed then .error .outOfGas
      else .ok (answer power price (operands input (headerLengths input)) (headerLengths input)) := by
  have hlengths := lengths_of_countable h
  unfold Countable at h
  generalize headerLengths input = l at h hlengths ⊢
  dsimp only at h
  by_cases hnone : l.base = 0 ∧ l.modulus = 0
  · have hanswer : answer power price (operands input l) l = ⟨minimum, #[]⟩ := by
      unfold answer
      rw [hnone.1, hnone.2, hempty, Array.eq_empty_of_size_eq_zero (Bytes.size_fitLeft _ 0)]
    rw [if_pos hnone] at hlengths
    rw [run_of_none hlengths, hanswer]
    exact charge_bind _ _ _
  · have hle : minimum ≤ (answer power price (operands input l) l).gasUsed := hmin _ _ _ _
    rw [if_neg hnone] at hlengths
    rw [run_of_some hlengths]
    dsimp only
    rw [charge_bind, raise_eq h]
    -- The minimum is charged first, and refuses nothing that the price would not.
    split_ifs
    · rfl
    · omega
    · rfl
    · rfl

lemma priceWith_empty {divisor : Word} {complexity : Nat → Word} (h : complexity 0 = 0)
    (exponent head : Nat) :
    priceWith minimum divisor complexity 0 exponent 0 head = minimum := by
  have hmul (n : Word) : Word.satMul 0 n / divisor = 0 := by
    have hzero : Word.satMul 0 n = 0 := by
      change BitVec.ofNat 256 (Nat.min (0 * n.toNat) Word.max.toNat) = 0
      rw [Nat.zero_mul]
      rfl
    rw [hzero]
    exact BitVec.zero_udiv
  have hmax : Nat.max 0 0 = 0 := rfl
  unfold priceWith
  dsimp only
  rw [hmax, h, hmul]
  exact Nat.max_zero _

lemma size_modulus (input : Bytes) (l : Lengths) : (operands input l).modulus.size = l.modulus :=
  Bytes.size_window _ _ _

/-- For lengths that can be counted together, an input is answered as soon as there is gas for it, and
what comes out is the power of the operands in the input, as if that went on with zero bytes. -/
theorem run_powers (hpower : Computes power) (h : Countable input) :
    let l := headerLengths input
    let x := operands input l
    ∃ first second, Powers firstPrice x l first ∧ Powers secondPrice x l second ∧
      ∀ gasLimit,
        runFirst power input gasLimit =
          (if gasLimit < first.gasUsed then .error .outOfGas else .ok first) ∧
        runSecond power input gasLimit =
          (if gasLimit < second.gasUsed then .error .outOfGas else .ok second) := by
  have hsize := size_modulus input (headerLengths input)
  have hfirst : ∀ e h, firstPrice 0 e 0 h = 0 := priceWith_empty (by decide)
  have hsecond : ∀ e h, secondPrice 0 e 0 h = secondMinimum := priceWith_empty (by decide)
  have hleast : ∀ b e m h, secondMinimum ≤ secondPrice b e m h := fun _ _ _ _ =>
    Nat.le_max_left _ _
  exact ⟨_, _, powers_answer hpower hsize, powers_answer hpower hsize, fun gasLimit =>
    ⟨run_eq (fun _ _ _ _ => Nat.zero_le _) hfirst h gasLimit, run_eq hleast hsecond h gasLimit⟩⟩

/-- An input that ends within the modulus: the fifth power of 3 modulo 256. -/
def truncated : Bytes :=
  Array.replicate 31 0 ++ #[1] ++ Array.replicate 31 0 ++ #[1] ++ Array.replicate 31 0 ++ #[2] ++
    #[3, 5, 1]

theorem run_powers_truncated :
    Computes Crypto.ModularPower.powerBytes ∧ Countable truncated ∧
      runFirst Crypto.ModularPower.powerBytes truncated 0 = .ok ⟨0, #[0, 243]⟩ ∧
      runSecond Crypto.ModularPower.powerBytes truncated 200 = .ok ⟨200, #[0, 243]⟩ := by
  have hlengths : headerLengths truncated = ⟨1, 1, 2⟩ := by decide +kernel
  have hcountable : Countable truncated := by
    rw [Countable, hlengths]
    decide
  have hoperands : operands truncated ⟨1, 1, 2⟩ = ⟨#[3], #[5], #[1, 0]⟩ := by decide +kernel
  have hbytes : Bytes.ofNat 2 (Operands.power ⟨#[3], #[5], #[1, 0]⟩) = #[0, 243] := by decide +kernel
  have hrun := run_powers computes_powerBytes hcountable
  dsimp only at hrun
  rw [hlengths, hoperands] at hrun
  obtain ⟨first, second, hfirst, hsecond, hrun⟩ := hrun
  have hfirst : first = ⟨0, #[0, 243]⟩ := by
    obtain ⟨_, _⟩ := first
    rw [Output.mk.injEq]
    exact ⟨hfirst.gasUsed.trans (by decide +kernel), hfirst.bytes.trans hbytes⟩
  have hsecond : second = ⟨200, #[0, 243]⟩ := by
    obtain ⟨_, _⟩ := second
    rw [Output.mk.injEq]
    exact ⟨hsecond.gasUsed.trans (by decide +kernel), hsecond.bytes.trans hbytes⟩
  refine ⟨computes_powerBytes, hcountable, (hrun 0).1.trans ?_, (hrun 200).2.trans ?_⟩
  · rw [hfirst]
    rfl
  · rw [hsecond]
    rfl

end Evm.Precompile.ModExp
