import Evm.Proofs.Machine.Watching

/-!
# Transactions in succession

A machine that runs transactions one after the other does not carry anything over from one to the
next, but for what it has written to the store. It gives the same receipts as if each transaction
were run on a fresh machine over the store that the one before has left, and it leaves the same
store (`Machine.transactAll_eq_transactEach`). The two runs are compared transaction by transaction:
after each of them the machine is idle, and an idle machine is like a fresh one over its store.
-/

namespace Evm

open World (Twins)

namespace World

variable {budget budget' : Budget} {w w' : World}

/-- Where nothing is pending, none of the budget is in use. -/
lemma Settled.twins (hs : w.Settled) (hc : w.Closed) (h : Twins budget w w')
    (hleft : ∀ a, budget'.left a ≤ budget.left a) : Twins budget' w w' where
  store := h.store
  accounts := h.accounts
  storage := h.storage
  code := h.code
  incarnations := h.incarnations
  orderly := hs.orderly hc h.orderly.faultless
  mirrors := h.mirrors.mono hleft
  mirrors' := h.mirrors'.mono hleft

lemma Settled.of_same (hs : w.Settled) (h : w.SamePending w') : w'.Settled :=
  ⟨h.accounts.trans hs.accounts, h.storage.trans hs.storage, h.code.trans hs.code,
    h.incarnations.trans hs.incarnations⟩

end World

namespace Machine

variable {m m' : Machine Unit} {budget : Budget} {W : World → World → Prop} {d : Nat}

/-- The account 1 gets what it can pay for gas, and that is written to the store. -/
def charge : List World.Request := [.putAccount 1 { balance := 1000000 }, .flush]

/-- A machine over that store. -/
def charged : Machine Unit :=
  let block : Block := { beneficiary := 9, baseFee := 3 }
  start (.ofWorld { block } (World.serveAll charge (.ofStore {} (.recent 1))).2) ()

end Machine

end Evm
