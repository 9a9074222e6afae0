import Evm.Machine.Transaction
import Evm.Proofs.Ledger
import Evm.Proofs.State.Total

/-!
# Moving value

Moving value does not change the sum of all balances, and as long as that sum fits a word, so does
everything that is computed on the way. The one exception is an account that is destroyed in favour
of itself, whose balance is lost.
-/

namespace Evm

open Ledger (Uniform)

namespace World

variable {w : World} {supply : Nat} {exactly : Prop}

/-- Taking value from one account and adding it to another leaves the total. -/
lemma total_withAccount_withAccount {w₁ w₂ : World} {a b : Address} {given taken : Account}
    {value : Word} {record? record₂? : Option Account} (h₁ : w₁.readAccount a = .ok record?)
    (hgiven : given.balance.toNat + value.toNat = (record?.getD {}).balance.toNat)
    (h₂ : (w₁.withAccount a (some given)).SameRecords w₂)
    (hw : (w₁.withAccount a (some given)).RecallsAccounts)
    (hread : w₂.readAccount b = .ok record₂?)
    (htaken : taken.balance.toNat = (record₂?.getD {}).balance.toNat + value.toNat) :
    (w₂.withAccount b (some taken)).total = w₁.total := by
  have ht₁ := total_withAccount w₁ a (some given)
  have ht₂ := total_withAccount w₂ b (some taken)
  rw [h₂.total hw] at ht₂
  rw [balanceOf_of_read h₁] at ht₁
  rw [balanceOf_of_read hread] at ht₂
  simp only [Option.getD_some] at ht₁ ht₂
  omega

/-- Bringing an account into existence leaves the total. -/
lemma conserves_bringForth (hw : w.Conserves supply exactly) (a : Address) {w' : World}
    (h : (do if !(← exists? a) then putAccount a {} : WorldM Unit).run w = (.ok (), w')) :
    w'.Conserves supply exactly := by
  obtain ⟨w₁, hrun, href⟩ := exists?_run w a
  have hw₁ := hw.sameRecords href.sameRecords
  rw [Program.run_bind, hrun] at h
  cases hr : w.readAccount a with
  | error e =>
    rw [hr] at h
    cases h
  | ok record? =>
    rw [hr] at h
    cases record? with
    | some record =>
      cases h
      exact hw₁
    | none =>
      cases h
      have hr₁ := (href.sameRecords.readAccount hw.recalls a).trans hr
      exact hw₁.withAccount hr₁ rfl

lemma uniform_moveValue (hw : w.Conserves supply exactly) (hsupply : supply < 2 ^ 256)
    (features : Features) {sender receiver : Address} {value : Word}
    (hfunds : value ≠ 0 → value.toNat ≤ w.balanceOf sender) :
    Uniform (fun _ w' => w'.Conserves supply exactly)
      (fun _ => Machine.moveValue features sender receiver value) w := by
  unfold Machine.moveValue
  refine .ite (fun _ => ?_) fun hvalue => ?_
  · refine .ite (fun _ => ?_) fun _ => .pure hw
    exact .alone fun _ _ hput => conserves_bringForth hw receiver hput
  · refine .bind (.alone fun giving w₁ hrun => accountOrEmpty_ok hrun) ?_
    rintro giving w₁ ⟨href, record?, hread, rfl⟩
    have hw₁ := hw.sameRecords href.sameRecords
    have hread₁ := (href.sameRecords.readAccount hw.recalls sender).trans hread
    have hle := hfunds hvalue
    rw [balanceOf_of_read hread] at hle
    refine .bind (Ledger.uniform_withdraw hle w₁) ?_
    rintro rest w₁ ⟨hrest, rfl⟩
    refine .bind (.alone (P := fun _ w' => ∃ given : Account, given.balance = rest ∧
      w' = w₁.withAccount sender (some given)) fun _ _ hput =>
        ⟨_, rfl, (congrArg Prod.snd hput).symm⟩) ?_
    rintro _ _ ⟨given, rfl, rfl⟩
    have hrecalls := hw₁.recalls.continues (continues_withAccount w₁ sender (some given))
    refine .bind (.alone fun taking w₂ hrun => accountOrEmpty_ok hrun) ?_
    rintro taking w₂ ⟨href₂, record₂?, hread₂, rfl⟩
    -- The receiver holds no more than the rest of the supply, so that the sum is a word.
    have hfits : (record₂?.getD {}).balance.toNat + value.toNat < 2 ^ 256 := by
      have htotal := total_withAccount w₁ sender (some given)
      have hle := balanceOf_le_total (w₁.withAccount sender (some given)) receiver
      have hsum := hw₁.le
      rw [balanceOf_of_read hread₁, Option.getD_some] at htotal
      rw [balanceOf_of_read hread₂] at hle
      omega
    refine .bind (Ledger.uniform_deposit hfits w₂) ?_
    rintro sum w₂ ⟨hsum, rfl⟩
    refine .alone fun _ _ hput => ?_
    obtain rfl := (congrArg Prod.snd hput).symm
    refine hw₁.of_total ((continues_withAccount _ _ _).trans
      (href₂.continues.trans (continues_withAccount _ _ _))) ?_
    exact total_withAccount_withAccount hread₁ hrest href₂.sameRecords hrecalls
      ((href₂.sameRecords.readAccount hrecalls receiver).trans hread₂) hsum

/-- Emptying one account in favour of another leaves the total. -/
lemma total_swept {a b : Address} (ne : a ≠ b) {taken cleared : Account}
    (htaken : taken.balance.toNat = w.balanceOf b + w.balanceOf a)
    (hcleared : cleared.balance.toNat = 0) :
    ((w.withAccount b (some taken)).withAccount a (some cleared)).total = w.total := by
  have ht₁ := total_withAccount w b (some taken)
  have ht₂ := total_withAccount (w.withAccount b (some taken)) a (some cleared)
  rw [balanceOf_withAccount, if_neg ne] at ht₂
  rw [Option.getD_some, htaken] at ht₁
  rw [Option.getD_some, hcleared] at ht₂
  omega

/-- A destruction moves the balance to the beneficiary. Only if that is the account itself, and the
account is deleted, is the balance lost. -/
lemma sweep_run (hw : w.Conserves supply exactly) (hsupply : supply < 2 ^ 256) {a b : Address}
    {record? target? : Option Account} (hrecord : w.readAccount a = .ok record?)
    (htarget : w.readAccount b = .ok target?) (deletes : Bool) :
    ∃ w', (∀ ledger : Ledger, ledger.Exact →
        (Machine.sweep a b (record?.getD {}) (target?.getD {}) deletes).run w = (.ok (), w')) ∧
      w'.Conserves supply (exactly ∧ deletes = false) := by
  unfold Machine.sweep
  by_cases ne : a ≠ b
  · have hle := w.balanceOf_add_le_total ne
    have hsum := hw.le
    rw [balanceOf_of_read hrecord, balanceOf_of_read htarget] at hle
    have hfits : (target?.getD {}).balance.toNat + (record?.getD {}).balance.toNat < 2 ^ 256 := by
      omega
    obtain ⟨taken, htaken⟩ : ∃ taken : Account, taken = { target?.getD {} with
      balance := (target?.getD {}).balance + (record?.getD {}).balance } := ⟨_, rfl⟩
    obtain ⟨cleared, hcleared⟩ : ∃ cleared : Account,
      cleared = { record?.getD {} with balance := 0 } := ⟨_, rfl⟩
    refine ⟨(w.withAccount b (some taken)).withAccount a (some cleared), fun ledger h => ?_, ?_⟩
    · rw [if_pos ne, Program.run_bind_ok (h.deposit hfits w), ← htaken, ← hcleared,
        Program.run_bind_ok (putAccount_run _ _ _), putAccount_run]
    · refine (hw.of_total ((continues_withAccount _ _ _).trans (continues_withAccount _ _ _))
        (total_swept ne ?_ (by rw [hcleared]; rfl))).mono And.left
      rw [htaken, balanceOf_of_read htarget, balanceOf_of_read hrecord]
      exact BitVec.toNat_add_of_lt hfits
  · obtain ⟨left, hleft⟩ : ∃ left : Account, left = if deletes then
      { record?.getD {} with balance := 0 } else record?.getD {} := ⟨_, rfl⟩
    have hcontinues := continues_withAccount w a (some left)
    refine ⟨w.withAccount a (some left), fun ledger h => ?_,
      hw.recalls.continues hcontinues, hw.answers.continues hcontinues, ?_, ?_⟩
    · rw [if_neg ne, ← hleft, putAccount_run]
    · have htotal := total_withAccount w a (some left)
      have hle : left.balance.toNat ≤ (record?.getD {}).balance.toNat := by
        rw [hleft]
        split
        · exact Nat.zero_le _
        · exact le_rfl
      have hsum := hw.le
      rw [Option.getD_some, balanceOf_of_read hrecord] at htotal
      omega
    · rintro ⟨hexactly, rfl⟩
      exact (hw.withAccount hrecord (by rw [hleft]; rfl)).eq hexactly

/-- Putting code in place leaves the balances. -/
lemma conserves_install (hw : w.Conserves supply exactly) (a : Address) (output : Bytes) :
    ((Machine.install a output).run w).2.Conserves supply exactly := by
  have hcode := hw.sameRecords (sameRecords_putCode w (Code.ofBytes output))
  unfold Machine.install
  rw [Program.run_bind]
  rcases hput : (putCode (Code.ofBytes output)).run w with ⟨_ | _, w₁⟩ <;> rw [hput] at hcode
  · exact hcode
  · obtain ⟨w₂, hrun, href⟩ := accountOrEmpty_run w₁ a
    have hw₂ := World.Conserves.sameRecords hcode href.sameRecords
    dsimp only
    rw [Program.run_bind, hrun]
    cases hr : w₁.readAccount a with
    | error e => exact hw₂
    | ok record? => exact hw₂.withAccount ((href.sameRecords.readAccount hcode.recalls a).trans hr) rfl

/-! ## Fees -/

end World

end Evm
