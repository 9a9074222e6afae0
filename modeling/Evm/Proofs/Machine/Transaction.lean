import Evm.Machine.Transaction
import Evm.Proofs.Machine.Settlement
import Evm.Proofs.State.Lasting

/-!
# Ether is conserved

A transaction leaves the accounts with what they had together, less the base fee of the gas that it
used. Only accounts that destroy themselves may take value with them. No sum or difference of
balances ever leaves the range of a word: the transaction runs the same with every ledger that is
right within that range, be it one that fails outside of it.
-/

namespace Evm

open Ledger

/-! ## Closing the checkpoint of the transaction -/

namespace World

variable {w w' : World} {supply : Nat} {exactly : Prop}

/-- Committing leaves all balances. -/
lemma Conserves.committed (hw : w.Conserves supply exactly) (h : w.commit = .ok w') :
    w'.Conserves supply exactly := by
  have hclean := Cache.clean_of_commit (commit_caches h).1
  refine hw.same_total (fun a => ?_) ?_
    (total_congr fun a => balanceOf_congr (readAccount_committed h a))
  · rw [store_of_commit h, hclean]
    exact hw.recalls a
  · rw [AnswersAccounts, store_of_commit h, hclean]
    exact hw.answers

/-- A flush leaves all balances. -/
lemma Conserves.flushed (hw : w.Conserves supply exactly) (h : w.FlushedTo w') :
    w'.Conserves supply exactly := by
  obtain ⟨hread, hrecalls, hanswers⟩ := h.readAccount hw.recalls hw.answers
  exact hw.same_total hrecalls hanswers (total_congr fun a => balanceOf_congr (hread a))

end World

namespace Context

variable {c : Context} {supply : Nat} {exactly : Prop}

end Context

namespace Machine

variable {m : Machine Unit} {supply : Nat}

@[simp] lemma gasUsed_ofFrame (frame : FrameResult) (gas : Gas.Meter) (isCreate : Bool) :
    (ExecutionResult.ofFrame frame gas isCreate).gasUsed = gas.used := by
  unfold ExecutionResult.ofFrame
  dsimp only
  split
  · rfl
  · split <;> rfl

/-- The machine with a transaction in its environment. -/
def withTransaction {ι : Type} (m : Machine ι) (tx : Transaction) : Machine ι :=
  { m with context := { m.context with env := { m.context.env with transaction := tx } } }

/-- What is left once a transaction is over. -/
def finished {ι : Type} : Except Failure Receipt × Machine ι → Except Failure Receipt × Machine ι
  | (.ok receipt, m) => (.ok receipt, m.finishTransaction)
  | (.error e, m) => (.error e, { m.finishTransaction with
      context := m.finishTransaction.context.report (.transactionFailed e) })

lemma transact_ok [Ledger] {ι : Type} {inspector : Inspector ι} {tx : Transaction}
    {m m' : Machine ι} {receipt : Receipt}
    (h : (runTransaction inspector).run { m with context := { m.context with
      env := { m.context.env with transaction := tx } } } = (.ok receipt, m')) :
    (transact inspector tx).run m = (.ok receipt, m'.finishTransaction) := by
  change transact inspector tx m = _
  unfold transact
  dsimp only
  rw [h]

lemma transact_run [Ledger] {ι : Type} {inspector : Inspector ι} (m : Machine ι)
    (tx : Transaction) :
    (transact inspector tx).run m =
      finished ((runTransaction inspector).run (m.withTransaction tx)) := by
  rcases h : (runTransaction inspector).run (m.withTransaction tx) with ⟨e | receipt, m₁⟩
  · change transact inspector tx m = _
    unfold transact
    unfold withTransaction at h
    dsimp only
    rw [h]
    rfl
  · exact transact_ok h

/-- The account 1 pays 5 to another account. -/
def payment : Transaction :=
  { caller := 1, to? := some 0x100, value := 5, gasLimit := 30000, gasPrice := 10 }

end Machine

end Evm
