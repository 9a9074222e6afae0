/-!
# Counts

Gas amounts, lengths and offsets are natural numbers that the machine keeps within 64 bits. Where a
price or an offset could grow past that, the rules either stop at the largest count or report that
there is none; the operations of this file are those two readings of addition and multiplication.
-/

namespace Evm.Count

/-- The largest count, the largest number of 64 bits. -/
def max : Nat := 18446744073709551615

/-- Addition that stops at the largest count. -/
def satAdd (a b : Nat) : Nat := Nat.min (a + b) max

/-- Multiplication that stops at the largest count. -/
def satMul (a b : Nat) : Nat := Nat.min (a * b) max

/-- Multiplication that has no result past the largest count. -/
def mul? (a b : Nat) : Option Nat := if a * b ≤ max then some (a * b) else none

/-- Number of 32-byte words that hold `len` bytes. -/
def words (len : Nat) : Nat := satAdd len 31 / 32

theorem max_eq : max = 18446744073709551615 := rfl

theorem satAdd_le_max (a b : Nat) : satAdd a b ≤ max := Nat.min_le_right _ _

theorem satAdd_eq {a b : Nat} (h : a + b ≤ max) : satAdd a b = a + b := Nat.min_eq_left h

theorem satMul_eq {a b : Nat} (h : a * b ≤ max) : satMul a b = a * b := Nat.min_eq_left h

end Evm.Count
