import Mathlib.Data.FinEnum
import Evm.Proofs.State.Reads

/-!
# The total of all balances

The sum of the balances of all accounts, and how it changes when a record is written: by the new
balance less the one that it replaces. `World.Conserves` says that the balances add up to a supply.
-/

namespace Evm

namespace World

variable {w w' : World} {a b : Address}

/-- The balance that is read of an account. An account that cannot be read has none. -/
def balanceOf (w : World) (a : Address) : Nat :=
  match answer (account a) w with
  | .ok (some record) => record.balance.toNat
  | _ => 0

/-- The sum of the balances of all accounts. -/
def total (w : World) : Nat := ∑ a, w.balanceOf a

lemma balanceOf_of_read {record? : Option Account} (h : w.readAccount a = .ok record?) :
    w.balanceOf a = (record?.getD {}).balance.toNat := by
  rw [balanceOf, answer_account, h]
  cases record? <;> rfl

lemma balanceOf_congr (h : w'.readAccount a = w.readAccount a) :
    w'.balanceOf a = w.balanceOf a := by
  rw [balanceOf, balanceOf, answer_account, answer_account, h]

lemma balanceOf_checkpoint (w : World) (a : Address) :
    w.checkpoint.balanceOf a = w.balanceOf a :=
  balanceOf_congr rfl

lemma total_congr (h : ∀ a, w'.balanceOf a = w.balanceOf a) : w'.total = w.total :=
  Finset.sum_congr rfl fun a _ => h a

lemma balanceOf_le_total (w : World) (a : Address) : w.balanceOf a ≤ w.total :=
  Finset.single_le_sum (fun _ _ => Nat.zero_le _) (Finset.mem_univ a)

/-- Two accounts together hold no more than all do. -/
lemma balanceOf_add_le_total (w : World) (ne : a ≠ b) :
    w.balanceOf a + w.balanceOf b ≤ w.total := by
  rw [← Finset.sum_pair ne]
  exact Finset.sum_le_sum_of_subset (Finset.subset_univ _)

/-! ## Writing records -/

/-- The world with another record of an account. -/
def withAccount (w : World) (a : Address) (record? : Option Account) : World :=
  { w with accounts := w.accounts.write a record? }

lemma putAccount_run (w : World) (a : Address) (record : Account) :
    (putAccount a record).run w = (.ok (), w.withAccount a (some record)) := rfl

lemma continues_withAccount (w : World) (a : Address) (record? : Option Account) :
    w.Continues (w.withAccount a record?) :=
  Table.steady_accounts.continues (.write _ _ _)

lemma readAccount_withAccount (w : World) (a b : Address) (record? : Option Account) :
    (w.withAccount a record?).readAccount b =
      if b = a then .ok record? else w.readAccount b :=
  Table.read_write Table.lawful_accounts w a b record?

lemma balanceOf_withAccount (w : World) (a b : Address) (record? : Option Account) :
    (w.withAccount a record?).balanceOf b =
      if b = a then (record?.getD {}).balance.toNat else w.balanceOf b := by
  have hread := readAccount_withAccount w a b record?
  split at hread <;> rename_i h
  · rw [balanceOf_of_read hread, if_pos h]
  · rw [balanceOf_congr hread, if_neg h]

/-- Writing a record changes the total by the new balance less the one that it replaces. -/
lemma total_withAccount (w : World) (a : Address) (record? : Option Account) :
    (w.withAccount a record?).total + w.balanceOf a =
      w.total + (record?.getD {}).balance.toNat := by
  have hw := Finset.add_sum_erase Finset.univ w.balanceOf (Finset.mem_univ a)
  have hw' := Finset.add_sum_erase Finset.univ (w.withAccount a record?).balanceOf
    (Finset.mem_univ a)
  have hrest : ∑ b ∈ Finset.univ.erase a, (w.withAccount a record?).balanceOf b =
      ∑ b ∈ Finset.univ.erase a, w.balanceOf b := by
    refine Finset.sum_congr rfl fun b hb => ?_
    rw [balanceOf_withAccount, if_neg (Finset.ne_of_mem_erase hb)]
  rw [balanceOf_withAccount, if_pos rfl, hrest] at hw'
  simp only [total]
  omega

/-- Writing a record with the balance that was read leaves all balances. -/
lemma balanceOf_withAccount_of_read {record : Account} {record? : Option Account}
    (h : w.readAccount a = .ok record?) (hbalance : record.balance = (record?.getD {}).balance) :
    (w.withAccount a (some record)).balanceOf b = w.balanceOf b := by
  rw [balanceOf_withAccount]
  split
  · rename_i heq
    rw [heq, balanceOf_of_read h, Option.getD_some, hbalance]
  · rfl

/-! ## Conservation -/

/-- The pending records of accounts are the same, and nothing was flushed in between. -/
structure SameRecords (w w' : World) : Prop where
  continues : w.Continues w'
  dirty : w'.accounts.dirty = w.accounts.dirty

namespace SameRecords

lemma refl (w : World) : w.SameRecords w := ⟨.refl w, rfl⟩

lemma trans {w'' : World} (h : w.SameRecords w') (h' : w'.SameRecords w'') : w.SameRecords w'' :=
  ⟨h.continues.trans h'.continues, h'.dirty.trans h.dirty⟩

lemma readAccount (h : w.SameRecords w') (hw : w.RecallsAccounts) (a : Address) :
    w'.readAccount a = w.readAccount a :=
  readAccount_eq h.continues hw (by rw [h.dirty])

lemma balanceOf (h : w.SameRecords w') (hw : w.RecallsAccounts) (a : Address) :
    w'.balanceOf a = w.balanceOf a :=
  balanceOf_congr (h.readAccount hw a)

lemma total (h : w.SameRecords w') (hw : w.RecallsAccounts) : w'.total = w.total :=
  total_congr fun a => h.balanceOf hw a

end SameRecords

lemma Refreshed.sameRecords (h : w.Refreshed w') : w.SameRecords w' :=
  ⟨h.continues, h.accounts.dirty⟩

/-- Setting a slot leaves the records of accounts. -/
lemma sameRecords_setSlot (w : World) (a : Address) (index value : Word) :
    w.SameRecords ((setSlot a index value).run w).2 := by
  obtain ⟨w₁, hrun, href⟩ := incarnation_run w a
  have hwrite (key : SlotKey) (entry : Option Word) :
      w.SameRecords { w₁ with storage := w₁.storage.write key entry } :=
    ⟨href.continues.trans (Table.steady_storage.continues (.write _ key entry)),
      href.accounts.dirty⟩
  unfold setSlot
  rw [Program.run_bind, hrun]
  cases w.readIncarnation a with
  | error e => exact href.sameRecords
  | ok i =>
    dsimp only
    split
    · exact hwrite _ none
    · exact hwrite _ (some value)

/-- So does storing code. -/
lemma sameRecords_putCode (w : World) (code : Code) :
    w.SameRecords ((putCode code).run w).2 := by
  unfold putCode
  split
  · exact ⟨Table.steady_code.continues (.write _ code.hash (some code)), rfl⟩
  · exact .refl w

/-- Every record of an account that may be forgotten can be read from the store. -/
def AnswersAccounts (w : World) : Prop :=
  w.accounts.clean.keepsAll = true ∨ ∀ a e, w.store.get (StoreKey.account a) ≠ .error e

lemma AnswersAccounts.continues (hw : w.AnswersAccounts) (h : w.Continues w') :
    w'.AnswersAccounts := by
  rw [AnswersAccounts, h.store, h.accounts.clean.keepsAll]
  exact hw

/-- The balances add up to the supply, or to less where they need not do so exactly; and no record
can be forgotten or lost. -/
structure Conserves (supply : Nat) (exactly : Prop) (w : World) : Prop where
  recalls : w.RecallsAccounts
  answers : w.AnswersAccounts
  le : w.total ≤ supply
  eq : exactly → w.total = supply

namespace Conserves

variable {supply : Nat} {exactly exactly' : Prop}

lemma mono (h : w.Conserves supply exactly) (himp : exactly' → exactly) :
    w.Conserves supply exactly' :=
  ⟨h.recalls, h.answers, h.le, fun he => h.eq (himp he)⟩

lemma same_total (h : w.Conserves supply exactly) (hrecalls : w'.RecallsAccounts)
    (hanswers : w'.AnswersAccounts) (htotal : w'.total = w.total) :
    w'.Conserves supply exactly :=
  ⟨hrecalls, hanswers, htotal.le.trans h.le, fun he => htotal.trans (h.eq he)⟩

lemma of_total (h : w.Conserves supply exactly) (hc : w.Continues w')
    (htotal : w'.total = w.total) : w'.Conserves supply exactly :=
  h.same_total (h.recalls.continues hc) (h.answers.continues hc) htotal

lemma sameRecords (h : w.Conserves supply exactly) (hs : w.SameRecords w') :
    w'.Conserves supply exactly :=
  h.of_total hs.continues (hs.total h.recalls)

lemma checkpoint (h : w.Conserves supply exactly) : w.checkpoint.Conserves supply exactly :=
  h.same_total h.recalls h.answers (total_congr w.balanceOf_checkpoint)

/-- What was done in a checkpoint still conserves the supply once the checkpoint is closed. -/
lemma closed {w₁ w₂ : World} (h : w₁.Conserves supply exactly) (h₁ : w.checkpoint.Continues w₁)
    (h₂ : w.Continues w₂) (hw : w.RecallsAccounts)
    (hd : w₂.accounts.dirty = w₁.accounts.dirty) : w₂.Conserves supply exactly := by
  have hanswers : w.AnswersAccounts := by
    have hanswers₁ := h.answers
    rw [AnswersAccounts, h₁.store, h₁.accounts.clean.keepsAll] at hanswers₁
    exact hanswers₁
  have htotal : w₂.total = w₁.total :=
    total_congr fun a => balanceOf_congr (readAccount_closed h₁ h₂ hw hd)
  exact h.same_total (hw.continues h₂) (hanswers.continues h₂) htotal

/-- Writing a record changes the supply by the new balance less the one that was read. -/
lemma write {supply' : Nat} {record? new? : Option Account} (h : w.Conserves supply exactly)
    (hread : w.readAccount a = .ok record?)
    (hsupply : supply' + (record?.getD {}).balance.toNat =
      supply + (new?.getD {}).balance.toNat) :
    (w.withAccount a new?).Conserves supply' exactly := by
  have htotal := total_withAccount w a new?
  rw [balanceOf_of_read hread] at htotal
  have hcontinues := continues_withAccount w a new?
  refine ⟨h.recalls.continues hcontinues, h.answers.continues hcontinues, ?_, fun he => ?_⟩
  · have hle := h.le
    omega
  · have heq := h.eq he
    omega

/-- Writing a record with the balance that was read conserves the supply. -/
lemma withAccount {record : Account} {record? : Option Account} (h : w.Conserves supply exactly)
    (hread : w.readAccount a = .ok record?)
    (hbalance : record.balance = (record?.getD {}).balance) :
    (w.withAccount a (some record)).Conserves supply exactly :=
  h.write hread (by rw [Option.getD_some, hbalance])

end Conserves

end World

end Evm
