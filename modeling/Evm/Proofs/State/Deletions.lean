import Evm.Proofs.State.Requests

/-!
# Deleting many accounts

At the end of a transaction the destroyed accounts are deleted, and then those that have been
touched and are empty. No account stands twice in either list, so each list raises an incarnation at
most once, and twins are still twins if the budget allows one more raise of each.
-/

namespace Evm

namespace World

variable {w w' w₁ : World} {a : Address} {used left : Nat} {hused : used ≤ left}
  {hleft : left < 2 ^ 64} {hraised : used + 1 ≤ left}

/-- The incarnation of an account. -/
def current (w : World) (a : Address) : UInt64 := incarnationIn w.store w.incarnations.dirty a

/-- No incarnation of these accounts has been raised more often. -/
def RaisedAtMost (used : Nat) (accounts : List Address) (w : World) : Prop :=
  ∀ a ∈ accounts, w.store.age a (w.current a) ≤ used

lemma RaisedAtMost.congr {accounts accounts' : List Address} (h : w.RaisedAtMost used accounts)
    (hsub : accounts' ⊆ accounts) (hstore : w₁.store = w.store)
    (hcurrent : ∀ a ∈ accounts', w₁.current a = w.current a) : w₁.RaisedAtMost used accounts' := by
  intro a ha
  rw [hstore, hcurrent a ha]
  exact h a (hsub ha)

lemma current_refreshed (h : w.Refreshed w₁) (a : Address) : w₁.current a = w.current a := by
  rw [current, current, h.store, h.incarnations.dirty]

/-- Deleting an account raises no other incarnation. -/
lemma current_deleteAccount (w : World) {a b : Address} (hb : b ≠ a) :
    ((deleteAccount a).run w).2.current b = w.current b := by
  obtain ⟨w₁, hrun, hw₁⟩ := incarnation_run w a
  unfold deleteAccount
  cases hi : w.readIncarnation a with
  | error e =>
    rw [hi] at hrun
    rw [Program.run_bind_error hrun]
    exact current_refreshed hw₁ b
  | ok n =>
    rw [hi] at hrun
    rw [Program.run_bind_ok hrun]
    refine Eq.trans ?_ (current_refreshed hw₁ b)
    change incarnationIn w₁.store (w₁.incarnations.write a (some (n + 1))).dirty b = _
    rw [Cache.dirty_write, incarnationIn_insert, if_neg hb]
    rfl

/-- A budget with one more raise has room for accounts that have not been raised since. -/
lemma hasRoom_of_raisedAtMost {accounts : List Address} (hm : w.Mirrors budget)
    (h : w.RaisedAtMost used accounts) (ha : a ∈ accounts) :
    w.HasRoom (.evenly (used + 1) left hraised hleft) a := by
  intro n hn
  rw [hm.readIncarnation hn]
  exact Nat.lt_succ_of_le (h a ha)

/-! ## Twins -/

/-- Twins in which no incarnation of these accounts has been raised more often. -/
def Spare (used : Nat) (budget : Budget) (accounts : List Address) (w w' : World) : Prop :=
  Twins budget w w' ∧ w.RaisedAtMost used accounts

/-- What has not been used of a budget is spare. -/
lemma Twins.spare (h : Twins (.evenly used left hused hleft) w w') (accounts : List Address) :
    Spare used (.evenly (used + 1) left hraised hleft) accounts w w' :=
  ⟨h.mono (fun _ => used.le_succ) fun _ => le_rfl, fun a _ =>
    h.orderly.age_incarnationIn List.mem_cons_self a⟩

/-- Deleting the first of some accounts. -/
lemma leads_deleteAccount {rest : List Address} (hnodup : (a :: rest).Nodup) :
    Program.Leads (Spare used (.evenly (used + 1) left hraised hleft) (a :: rest))
      (Spare used (.evenly (used + 1) left hraised hleft) rest) (deleteAccount a)
      (deleteAccount a) := by
  rintro w w' ⟨h, hspare⟩
  obtain ⟨hsame, h₁⟩ := h.deleteAccount
    (hasRoom_of_raisedAtMost h.mirrors hspare List.mem_cons_self)
  refine ⟨hsame, h₁, hspare.congr (List.subset_cons_self a rest) ?_ fun b hb => ?_⟩
  · exact (keeps_deleteAccount a w (.refl w)).store
  · exact current_deleteAccount w fun heq => (List.nodup_cons.1 hnodup).1 (heq ▸ hb)

lemma Spare.refreshed {budget : Budget} {accounts : List Address} {w₁' : World}
    (h : Spare used budget accounts w w') (hw : w.Refreshed w₁) (hw' : w'.Refreshed w₁') :
    Spare used budget accounts w₁ w₁' :=
  ⟨h.1.refreshed hw hw', h.2.congr (List.Subset.refl _) hw.store fun b _ => current_refreshed hw b⟩

lemma leads_deleteSpare {accounts : List Address} (hnodup : accounts.Nodup) :
    Program.Leads (Spare used (.evenly (used + 1) left hraised hleft) accounts)
      (Twins (.evenly (used + 1) left hraised hleft)) (accounts.forM deleteAccount)
      (accounts.forM deleteAccount) := by
  induction accounts with
  | nil => exact fun _ _ h => ⟨rfl, h.1⟩
  | cons a rest ih =>
    exact .bind (leads_deleteAccount hnodup) (fun _ => ih (List.nodup_cons.1 hnodup).2)
      fun _ _ h => h.1

/-- Deleting some accounts raises each incarnation once at most. -/
theorem leads_deleteAccounts {accounts : List Address} (hnodup : accounts.Nodup) :
    Program.Leads (Twins (.evenly used left hused hleft))
      (Twins (.evenly (used + 1) left hraised hleft)) (accounts.forM deleteAccount)
      (accounts.forM deleteAccount) :=
  fun w w' h => leads_deleteSpare hnodup w w' (h.spare accounts)

lemma leads_deleteEmptySpare {accounts : List Address} (hnodup : accounts.Nodup) :
    Program.Leads (Spare used (.evenly (used + 1) left hraised hleft) accounts)
      (Twins (.evenly (used + 1) left hraised hleft)) (Context.deleteEmpty accounts)
      (Context.deleteEmpty accounts) := by
  induction accounts with
  | nil => exact fun _ _ h => ⟨rfl, h.1⟩
  | cons a rest ih =>
    have hrest := ih (List.nodup_cons.1 hnodup).2
    have hskip : Program.Leads (Spare used (.evenly (used + 1) left hraised hleft) (a :: rest))
        (Twins (.evenly (used + 1) left hraised hleft)) (Context.deleteEmpty rest)
        (Context.deleteEmpty rest) :=
      fun w w' h => hrest w w' ⟨h.1, fun b hb => h.2 b (List.mem_cons_of_mem a hb)⟩
    have haccount : Program.Leads (Spare used (.evenly (used + 1) left hraised hleft) (a :: rest))
        (Spare used (.evenly (used + 1) left hraised hleft) (a :: rest)) (account a)
        (account a) := by
      intro w w' h
      obtain ⟨w₁, hrun, hw₁⟩ := account_run w a
      obtain ⟨w₁', hrun', hw₁'⟩ := account_run w' a
      rw [hrun, hrun']
      exact ⟨h.1.readAccount a, h.refreshed hw₁ hw₁'⟩
    refine .bind haccount (fun record? => ?_) fun _ _ h => h.1
    cases record? with
    | none => exact hskip
    | some record =>
      dsimp only
      split
      · refine .bind (leads_deleteAccount hnodup) (fun _ => ?_) fun _ _ h => h.1
        exact .bind hrest (fun _ _ _ h => ⟨rfl, h⟩) fun _ _ h => h
      · exact hskip

/-- So does deleting those of them that are empty. -/
theorem leads_deleteEmpty {accounts : List Address} (hnodup : accounts.Nodup) :
    Program.Leads (Twins (.evenly used left hused hleft))
      (Twins (.evenly (used + 1) left hraised hleft)) (Context.deleteEmpty accounts)
      (Context.deleteEmpty accounts) :=
  fun w w' h => leads_deleteEmptySpare hnodup w w' (h.spare accounts)

end World

end Evm
