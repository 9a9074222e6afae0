import Evm.Gas.Price

/-!
# The gas meter

A meter knows how much gas a frame was given, how much is left, the refund counter, and up to
which size memory has been paid for.
-/

namespace Evm.Gas

/-- The memory size that has been reached, in words, and its price. -/
structure MemorySize where
  words : Nat := 0
  cost : Nat := 0
  deriving DecidableEq, Repr

/-- Records a size of memory and gives what it costs on top of the size reached before, none if it
is not larger. -/
def MemorySize.grow (m : MemorySize) (words : Nat) : MemorySize × Option Nat :=
  if words ≤ m.words then (m, none)
  else
    let cost := memory words
    (⟨words, cost⟩, some (cost - m.cost))

/-- The gas of a frame. -/
structure Meter where
  limit : Nat
  remaining : Nat
  refunded : Int := 0
  memory : MemorySize := {}
  deriving DecidableEq, Repr

/-- Answer to a request for more memory. -/
inductive Expansion where
  | extended
  | same
  | outOfGas
  deriving DecidableEq, Repr

/-- The name of the answer in reports. -/
def Expansion.name : Expansion → String
  | extended => "Extended"
  | same => "Same"
  | outOfGas => "OutOfGas"

namespace Meter

/-- A meter with all its gas. -/
def full (limit : Nat) : Meter := { limit, remaining := limit }

/-- A meter whose gas has been used up. -/
def empty (limit : Nat) : Meter := { limit, remaining := 0 }

/-- Gas used so far. -/
def spent (m : Meter) : Nat := m.limit - m.remaining

/-- The meter after paying `cost`, none if there is not that much left. -/
def pay? (m : Meter) (cost : Nat) : Option Meter :=
  if cost ≤ m.remaining then some { m with remaining := m.remaining - cost } else none

/-- Takes back gas that a child frame did not use. -/
def giveBack (m : Meter) (returned : Nat) : Meter :=
  { m with remaining := m.remaining + returned }

/-- Uses up all gas. -/
def spendAll (m : Meter) : Meter := { m with remaining := 0 }

/-- Adds to the refund counter. -/
def addRefund (m : Meter) (refund : Int) : Meter := { m with refunded := m.refunded + refund }

/-- Sets the refund counter. -/
def setRefund (m : Meter) (refund : Int) : Meter := { m with refunded := refund }

/-- Bounds the refund by a fifth of the gas used, or by half of it where refunds were not yet
reduced. -/
def capRefund (m : Meter) (reduced : Bool) : Meter :=
  let bound := m.spent / (if reduced then 5 else 2)
  m.setRefund (Nat.min m.refunded.toNat bound : Nat)

/-- Pays for memory of `words` words. The size counts as reached even if the gas runs out. -/
def expand (m : Meter) (words : Nat) : Meter × Expansion :=
  match m.memory.grow words with
  | (_, none) => (m, .same)
  | (memory, some cost) =>
    let grown := { m with memory }
    match grown.pay? cost with
    | some paid => (paid, .extended)
    | none => (grown, .outOfGas)

end Meter

end Evm.Gas
