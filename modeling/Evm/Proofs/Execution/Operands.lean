import Evm.Proofs.Execution.Local

/-!
# Operands

What a program that takes words from the stack gives is said by the stack that it ran on: the words
are the topmost ones, and they are gone afterwards. A word that stands for a count is that count.
-/

namespace Evm

variable {σ : Type}

/-- The word that many places below the top of the stack, zero past the bottom. -/
def Frame.word (f : Frame) (n : Nat) : Word := f.stack.words.getD n 0

namespace Exec

variable {x y : Frame × σ}

/-- The words that are taken are the topmost ones, and the stack has that many. -/
lemma pop_eq_ok {n : Nat} {words : Vector Word n} (h : (pop n).run x = (.ok words, y)) :
    n ≤ x.1.stack.height ∧ (∀ k (hk : k < n), words[k] = x.1.word k) ∧
      y = ({ x.1 with stack := x.1.stack.drop n }, x.2) := by
  obtain ⟨f, s⟩ := x
  unfold pop at h
  rw [frame_bind_run] at h
  unfold Stack.pop? at h
  split at h
  · cases h
  · rename_i hpop
    split at hpop
    · rename_i hle
      cases hpop
      cases h
      refine ⟨hle, fun k hk => ?_, rfl⟩
      have hlength := f.stack.height_eq
      have hlt : k < f.stack.words.length := by omega
      simp [Frame.word, List.getD_eq_getElem?_getD, List.getElem?_eq_getElem hlt]
    · cases hpop

lemma pop2_eq_ok {v : Word × Word} (h : (pop2).run x = (.ok v, y)) :
    v = (x.1.word 0, x.1.word 1) ∧ y = ({ x.1 with stack := x.1.stack.drop 2 }, x.2) := by
  obtain ⟨v, z, hpop, hrest⟩ := Program.run_bind_eq_ok h
  obtain ⟨-, hwords, rfl⟩ := pop_eq_ok hpop
  cases hrest
  exact ⟨by rw [hwords, hwords], rfl⟩

lemma pop3_eq_ok {v : Word × Word × Word} (h : (pop3).run x = (.ok v, y)) :
    v = (x.1.word 0, x.1.word 1, x.1.word 2) ∧
      y = ({ x.1 with stack := x.1.stack.drop 3 }, x.2) := by
  obtain ⟨v, z, hpop, hrest⟩ := Program.run_bind_eq_ok h
  obtain ⟨-, hwords, rfl⟩ := pop_eq_ok hpop
  cases hrest
  exact ⟨by rw [hwords, hwords, hwords], rfl⟩

lemma pop4_eq_ok {v : Word × Word × Word × Word} (h : (pop4).run x = (.ok v, y)) :
    v = (x.1.word 0, x.1.word 1, x.1.word 2, x.1.word 3) ∧
      y = ({ x.1 with stack := x.1.stack.drop 4 }, x.2) := by
  obtain ⟨v, z, hpop, hrest⟩ := Program.run_bind_eq_ok h
  obtain ⟨-, hwords, rfl⟩ := pop_eq_ok hpop
  cases hrest
  exact ⟨by rw [hwords, hwords, hwords, hwords], rfl⟩

/-- A frame with enough words on its stack has them taken but for the last, which is looked at. -/
lemma operands_run {n : Nat} {f : Frame} (h : n + 1 ≤ f.stack.height) (s : σ) :
    ∃ words : Vector Word (n + 1), (∀ k (hk : k < n + 1), words[k] = f.word k) ∧
      (operands n).run (f, s) = (.ok words, ({ f with stack := f.stack.drop n }, s)) := by
  unfold operands
  rw [frame_bind_run, Stack.pop?, dif_pos h]
  refine ⟨_, fun k hk => ?_, rfl⟩
  have hlength := f.stack.height_eq
  have hlt : k < f.stack.words.length := by omega
  simp [Frame.word, List.getD_eq_getElem?_getD, List.getElem?_eq_getElem hlt]

lemma operands2_run {f : Frame} (h : 2 ≤ f.stack.height) (s : σ) :
    (operands2).run (f, s) =
      (.ok (f.word 0, f.word 1), ({ f with stack := f.stack.drop 1 }, s)) := by
  obtain ⟨words, hwords, hrun⟩ := operands_run h s
  unfold operands2
  rw [Program.run_bind_ok hrun, hwords, hwords]
  rfl

/-- The count of a word is the number that the word is. -/
lemma count_eq_ok {w : Word} {otherwise : Status} {n : Nat}
    (h : (count w otherwise).run x = (.ok n, y)) : n = w.toNat ∧ y = x := by
  unfold count Word.toCount? at h
  split at h
  · cases h
  · rename_i hcount
    split at hcount
    · cases hcount
      cases h
      exact ⟨rfl, rfl⟩
    · cases hcount

end Exec

end Evm
