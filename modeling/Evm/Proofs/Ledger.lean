import Evm.Proofs.Execution.Congruence
import Evm.State.Ledger

/-!
# Exact ledgers

A ledger is exact if it is right about all sums and differences that fit a word; about the others
it may say anything, or fail. That a program runs the same under all exact ledgers means that no
sum or difference of balances in it ever leaves the range of a word. The ledger that stops at the
bounds is exact, and so is one that fails there.
-/

namespace Evm.Ledger

/-- A ledger that is right where the result fits. -/
structure Exact (ledger : Ledger) : Prop where
  add : ∀ balance value : Word, balance.toNat + value.toNat < 2 ^ 256 →
    ledger.add balance value = .ok (balance + value)
  sub : ∀ balance value : Word, value ≤ balance → ledger.sub balance value = .ok (balance - value)

lemma exact_saturating : Exact saturating where
  add balance value h := by
    have hmax : Word.max.toNat = 2 ^ 256 - 1 := rfl
    have hmin : Nat.min (balance.toNat + value.toNat) Word.max.toNat =
        balance.toNat + value.toNat := Nat.min_eq_left (by omega)
    refine congrArg Except.ok (BitVec.eq_of_toNat_eq ?_)
    rw [Word.satAdd, hmin, BitVec.toNat_ofNat, BitVec.toNat_add]
  sub balance value h := by
    have hle : value.toNat ≤ balance.toNat := h
    have hlt := balance.isLt
    refine congrArg Except.ok (BitVec.eq_of_toNat_eq ?_)
    rw [Word.satSub, BitVec.toNat_ofNat, BitVec.toNat_sub_of_le h, Nat.mod_eq_of_lt (by omega)]

lemma Exact.deposit {ledger : Ledger} (h : ledger.Exact) {balance value : Word}
    (hle : balance.toNat + value.toNat < 2 ^ 256) (w : World) :
    (@Ledger.deposit ledger balance value).run w = (.ok (balance + value), w) := by
  rw [Ledger.deposit, h.add balance value hle]
  rfl

lemma Exact.withdraw {ledger : Ledger} (h : ledger.Exact) {balance value : Word}
    (hle : value ≤ balance) (w : World) :
    (@Ledger.withdraw ledger balance value).run w = (.ok (balance - value), w) := by
  rw [Ledger.withdraw, h.sub balance value hle]
  rfl

/-! ## Programs -/

section

variable {σ ε α β : Type}

/-- The program runs the same from that state under all exact ledgers, and what it gives, if
anything, is as said. -/
def Uniform (Q : α → σ → Prop) (p : Ledger → Program ε σ α) (s : σ) : Prop :=
  ∃ r s', (∀ ledger : Ledger, ledger.Exact → (p ledger).run s = (r, s')) ∧
    ∀ a, r = .ok a → Q a s'

namespace Uniform

variable {P : α → σ → Prop} {Q : β → σ → Prop} {s s' : σ}

lemma pure {b : β} (h : Q b s) : Uniform Q (fun _ => (Pure.pure b : Program ε σ β)) s :=
  ⟨.ok b, s, fun _ _ => rfl, fun _ hb => Except.ok.inj hb ▸ h⟩

/-- A program without a ledger. -/
lemma alone {p : Program ε σ α} (h : ∀ a s', p.run s = (.ok a, s') → P a s') :
    Uniform P (fun _ => p) s :=
  ⟨(p.run s).1, (p.run s).2, fun _ _ => rfl, fun a ha => h a _ (Prod.ext ha rfl)⟩

lemma bind {p : Ledger → Program ε σ α} {q : Ledger → α → Program ε σ β} (hp : Uniform P p s)
    (hq : ∀ a s', P a s' → Uniform Q (fun ledger => q ledger a) s') :
    Uniform Q (fun ledger => p ledger >>= q ledger) s := by
  obtain ⟨r, s', hrun, hP⟩ := hp
  cases r with
  | error e =>
    refine ⟨.error e, s', fun ledger h => Program.run_bind_error (hrun ledger h), ?_⟩
    rintro b ⟨⟩
  | ok a =>
    obtain ⟨r', s'', hrun', hQ⟩ := hq a s' (hP a rfl)
    exact ⟨r', s'', fun ledger h => (Program.run_bind_ok (hrun ledger h)).trans (hrun' ledger h),
      hQ⟩

/-- It is enough to look at one exact ledger if the others make no difference. -/
lemma of_eq {p : Ledger → Program ε σ α}
    (heq : ∀ ledger : Ledger, ledger.Exact → (p ledger).run s = (p saturating).run s)
    (h : ∀ a s', (p saturating).run s = (.ok a, s') → P a s') : Uniform P p s :=
  ⟨((p saturating).run s).1, ((p saturating).run s).2, heq, fun a ha => h a _ (Prod.ext ha rfl)⟩

/-- A program without a ledger that keeps an invariant. -/
lemma of_keeps {I : σ → Prop} {p : Program ε σ α} (hp : Keeps I p) (hs : I s) :
    Uniform (fun _ => I) (fun _ => p) s := by
  refine alone fun a s' hrun => ?_
  have hs' := hp s hs
  rwa [hrun] at hs'

/-- What comes after a program without a ledger that keeps an invariant. -/
lemma after {I : σ → Prop} {p : Program ε σ α} {q : Ledger → α → Program ε σ β}
    (hp : Keeps I p) (hs : I s) (hq : ∀ a s', I s' → Uniform Q (fun ledger => q ledger a) s') :
    Uniform Q (fun ledger => p >>= q ledger) s :=
  bind (of_keeps hp hs) hq

/-- What comes after a look at the state. -/
lemma get_bind {q : Ledger → σ → Program ε σ β} (hq : Uniform Q (fun ledger => q ledger s) s) :
    Uniform Q (fun ledger => MonadState.get >>= q ledger) s := by
  refine bind (P := fun a s' => a = s ∧ s' = s) (alone fun a s' h => ?_) ?_
  · obtain ⟨h₁, h₂⟩ := Prod.mk.inj h
    exact ⟨(Except.ok.inj h₁).symm, h₂.symm⟩
  · rintro a s' ⟨rfl, rfl⟩
    exact hq

lemma ite {c : Prop} [Decidable c] {p p' : Ledger → Program ε σ β} (hp : c → Uniform Q p s)
    (hp' : ¬c → Uniform Q p' s) :
    Uniform Q (fun ledger => if c then p ledger else p' ledger) s := by
  by_cases h : c
  · simpa only [if_pos h] using hp h
  · simpa only [if_neg h] using hp' h

lemma mono {P' : α → σ → Prop} {p : Ledger → Program ε σ α} (hp : Uniform P p s)
    (h : ∀ a s', P a s' → P' a s') : Uniform P' p s := by
  obtain ⟨r, s', hrun, hP⟩ := hp
  exact ⟨r, s', hrun, fun a ha => h a s' (hP a ha)⟩

/-- What the program gives under one exact ledger, it gives under all. -/
lemma gives {G : α → Prop} {p : Ledger → Program ε σ α} (hp : Uniform P p s)
    (hG : Gives G (p saturating)) : Uniform (fun a s' => P a s' ∧ G a) p s := by
  obtain ⟨r, s', hrun, hP⟩ := hp
  refine ⟨r, s', hrun, fun a ha => ⟨hP a ha, ?_⟩⟩
  subst ha
  exact hG _ _ _ (hrun saturating exact_saturating)

end Uniform

/-- The operation of a host does the same from that state under all exact ledgers. It keeps the
invariant, and its answer, if any, is as said. -/
def UniformOp (I : σ → Prop) (Q : α → σ → Prop) (op : Ledger → HostM σ α) (s : σ) : Prop :=
  ∃ a? s', (∀ ledger : Ledger, ledger.Exact → (op ledger).run s = (a?, s')) ∧ I s' ∧
    ∀ a, a? = some a → Q a s'

namespace UniformOp

variable {I : σ → Prop} {P : α → σ → Prop} {Q : β → σ → Prop} {s : σ}

/-- An operation without a ledger. -/
lemma alone {op : HostM σ α} (hop : HostM.Keeps I op) (hs : I s)
    (h : ∀ a s', op.run s = (some a, s') → P a s') : UniformOp I P (fun _ => op) s :=
  ⟨(op.run s).1, (op.run s).2, fun _ _ => rfl, hop s hs, fun a ha => h a _ (Prod.ext ha rfl)⟩

lemma bind {p : Ledger → HostM σ α} {q : Ledger → α → HostM σ β} (hp : UniformOp I P p s)
    (hq : ∀ a s', I s' → P a s' → UniformOp I Q (fun ledger => q ledger a) s') :
    UniformOp I Q (fun ledger => p ledger >>= q ledger) s := by
  obtain ⟨a?, s', hrun, hs', hP⟩ := hp
  cases a? with
  | none =>
    refine ⟨none, s', fun ledger h => HostM.run_bind_none (hrun ledger h), hs', ?_⟩
    rintro b ⟨⟩
  | some a =>
    obtain ⟨b?, s'', hrun', hQ⟩ := hq a s' hs' (hP a rfl)
    exact ⟨b?, s'', fun ledger h =>
      (HostM.run_bind_some (hrun ledger h)).trans (hrun' ledger h), hQ⟩

/-- The operation under one exact ledger does the same as under any other. -/
lemma alike {op : Ledger → HostM σ α} (h : ∀ s, I s → UniformOp I P op s) {ledger : Ledger}
    (hl : ledger.Exact) : HostM.Alike (Diagonal I) (op saturating) (op ledger) := by
  refine .diagonal fun s hs => ?_
  obtain ⟨a?, s', hrun, hs', -⟩ := h s hs
  rw [hrun ledger hl, hrun saturating exact_saturating]
  exact ⟨rfl, hs'⟩

end UniformOp

end

/-! ## Sums and differences -/

lemma uniform_deposit {balance value : Word} (h : balance.toNat + value.toNat < 2 ^ 256)
    (w : World) :
    Uniform (fun sum w' => sum.toNat = balance.toNat + value.toNat ∧ w' = w)
      (fun _ => deposit balance value) w := by
  refine ⟨_, _, fun ledger hl => hl.deposit h w, ?_⟩
  rintro _ ⟨⟩
  exact ⟨BitVec.toNat_add_of_lt h, rfl⟩

lemma uniform_withdraw {balance value : Word} (h : value.toNat ≤ balance.toNat) (w : World) :
    Uniform (fun rest w' => rest.toNat + value.toNat = balance.toNat ∧ w' = w)
      (fun _ => withdraw balance value) w := by
  refine ⟨_, _, fun ledger hl => hl.withdraw h w, ?_⟩
  rintro _ ⟨⟩
  rw [BitVec.toNat_sub_of_le h]
  exact ⟨Nat.sub_add_cancel h, rfl⟩

end Evm.Ledger
