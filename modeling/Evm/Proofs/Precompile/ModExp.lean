import Evm.Precompile
import Evm.Proofs.Bytes

/-!
# Reading the operands of an exponentiation

The header says how long base, exponent and modulus are, and the price needs the first bytes of the
exponent before anything else is read. The operands may begin anywhere, also past the end of the
input, and all that is read of it lies before the end that the header announces.
-/

namespace Evm.Precompile.ModExp

variable {x y : Bytes}

/-! ## The header -/

lemma announced_eq (input : Bytes) (start : Nat) :
    announced input start = (input.window start 32).toNat := by
  unfold announced
  rw [Bytes.fitRightFrom_eq_window]

/-- The lengths are the three numbers of the header. -/
lemma lengths_eq_some {l : Lengths} (h : lengths x = .ok (some l)) :
    l = ⟨announced x 0, announced x 32, announced x 64⟩ := by
  unfold lengths at h
  dsimp only at h
  split_ifs at h
  · cases Except.ok.inj h
  · exact (Option.some.inj (Except.ok.inj h)).symm

variable {power : Bytes → Bytes → Bytes → Bytes} {minimum : Nat} {price : Nat → Nat → Nat → Nat → Nat}

lemma run_of_error {e : Error} (h : lengths x = .error e) :
    run power minimum price x = fun gasLimit => charge minimum gasLimit >>= fun _ => .error e := by
  funext gasLimit
  unfold run
  rw [h]
  rfl

lemma run_of_none (h : lengths x = .ok none) :
    run power minimum price x =
      fun gasLimit => charge minimum gasLimit >>= fun _ => .ok ⟨minimum, #[]⟩ := by
  funext gasLimit
  unfold run
  rw [h]
  rfl

lemma run_of_some {l : Lengths} (h : lengths x = .ok (some l)) :
    run power minimum price x = fun gasLimit =>
      charge minimum gasLimit >>= fun _ => raise power price (x.drop headerSize) l gasLimit := by
  funext gasLimit
  unfold run
  rw [h]
  rfl

/-! ## The operands -/

/-- The head of the exponent is what there is of its first 32 bytes. -/
lemma exponentHead_eq (input : Bytes) (l : Lengths) :
    exponentHead (input.drop headerSize) l =
      (input.window (headerSize + l.base) (min l.exponent 32)).toNat := by
  have hmin : Nat.min l.exponent 32 = min l.exponent 32 := rfl
  unfold exponentHead
  dsimp only
  rw [Bytes.fitRightFrom_eq_window, Bytes.window_drop, Bytes.extract_window, hmin,
    min_eq_left (min_le_right l.exponent 32), Bytes.toNat_fitLeft (by simp)]

lemma Lengths.total_le (l : Lengths) : l.total ≤ l.base + l.exponent + l.modulus := by
  -- Counting stops at the largest count, so it never gives more than there is.
  have hinner : Count.satAdd l.base l.exponent ≤ l.base + l.exponent := Nat.min_le_left _ _
  have houter : l.total ≤ Count.satAdd l.base l.exponent + l.modulus := Nat.min_le_left _ _
  omega

/-- Only so many bytes after the header are cut up. -/
lemma split_congr (l : Lengths)
    (h : x.window headerSize l.total = y.window headerSize l.total) :
    split (x.drop headerSize) l = split (y.drop headerSize) l := by
  have hall : Bytes.fitRight (x.drop headerSize) l.total =
      Bytes.fitRight (y.drop headerSize) l.total := by
    rw [Bytes.fitRight_eq_window, Bytes.fitRight_eq_window, Bytes.window_drop, Bytes.window_drop]
    exact h
  unfold split
  rw [hall]

/-- The header and the operands it announces. -/
def extent (input : Bytes) : Nat :=
  headerSize + (input.window 0 32).toNat + (input.window 32 32).toNat +
    (input.window 64 32).toNat

/-- The head of the exponent and the operands are windows within the part that is read. -/
lemma raise_congr (l : Lengths) {n : Nat} (hn : headerSize + l.base + l.exponent + l.modulus ≤ n)
    (h : x.window 0 n = y.window 0 n) :
    raise power price (x.drop headerSize) l = raise power price (y.drop headerSize) l := by
  have hhead : exponentHead (x.drop headerSize) l = exponentHead (y.drop headerSize) l := by
    have hread : headerSize + l.base + min l.exponent 32 ≤ n := by
      have hmin := min_le_left l.exponent 32
      omega
    rw [exponentHead_eq, exponentHead_eq, Bytes.window_congr h hread]
  have hsplit : split (x.drop headerSize) l = split (y.drop headerSize) l := by
    have hread : headerSize + l.total ≤ n := by
      have htotal := l.total_le
      omega
    exact split_congr l (Bytes.window_congr h hread)
  unfold raise
  rw [hhead, hsplit]

/-- The lengths come from the header alone, and they say how far the operands go. -/
lemma run_congr (h : x.window 0 (extent x) = y.window 0 (extent x)) :
    run power minimum price x = run power minimum price y := by
  -- The extent is itself read off the input, but off the header, on which the two agree.
  have hannounced {start : Nat} (hle : start + 32 ≤ headerSize) :
      announced x start = announced y start := by
    have hread : start + 32 ≤ extent x := by
      unfold extent
      omega
    rw [announced_eq, announced_eq, Bytes.window_congr h hread]
  have hlengths : lengths x = lengths y := by
    unfold lengths
    rw [hannounced (by decide : 0 + 32 ≤ headerSize), hannounced (by decide : 32 + 32 ≤ headerSize),
      hannounced (by decide : 64 + 32 ≤ headerSize)]
  cases hl : lengths x with
  | error e => rw [run_of_error hl, run_of_error (hlengths ▸ hl)]
  | ok l? =>
    cases l? with
    | none => rw [run_of_none hl, run_of_none (hlengths ▸ hl)]
    | some l =>
      have hextent : extent x = headerSize + l.base + l.exponent + l.modulus := by
        rw [lengths_eq_some hl]
        simp only [extent, announced_eq]
      rw [run_of_some hl, run_of_some (hlengths ▸ hl), raise_congr l hextent.ge h]

end Evm.Precompile.ModExp
