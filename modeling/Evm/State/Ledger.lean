import Evm.State.World

/-!
# Ledgers

How value is added to a balance and taken from it. The machine counts with balances that stop at
zero and at the largest word; it is defined over any ledger, so that one can say when that makes no
difference.
-/

namespace Evm

/-- How value is added to a balance and taken from it. -/
class Ledger where
  add (balance value : Word) : Except StateError Word
  sub (balance value : Word) : Except StateError Word

namespace Ledger

/-- Balances that stop at zero and at the largest word. -/
instance saturating : Ledger where
  add balance value := .ok (Word.satAdd balance value)
  sub balance value := .ok (Word.satSub balance value)

variable [Ledger]

/-- The balance with some value on top. -/
def deposit (balance value : Word) : WorldM Word := MonadExcept.ofExcept (add balance value)

/-- The balance without some value. -/
def withdraw (balance value : Word) : WorldM Word := MonadExcept.ofExcept (sub balance value)

end Ledger

end Evm
