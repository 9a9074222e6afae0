import Evm.Count
import Evm.Features

/-!
# Chain configuration

The fork and the proposals on top of it, the size limits of code, and the checks that may be
switched off for simulation.
-/

namespace Evm

/-- How the chain is configured. The features are those of the fork and the extra proposals. -/
structure Config where
  chainId : Nat := 1
  fork : Fork := .cancun
  extraEips : List Nat := []
  features : Features := .ofFork .cancun
  /-- Limit on deployed code in place of the usual one. -/
  codeLimit? : Option Nat := none
  /-- Limit on init code in place of the usual one. -/
  initCodeLimit? : Option Nat := none
  skipNonceCheck : Bool := false
  skipBalanceCheck : Bool := false
  skipBaseFeeCheck : Bool := false
  deriving DecidableEq, Repr

namespace Config

instance : Inhabited Config := ⟨{}⟩

/-- The configuration of a fork. -/
def ofFork (fork : Fork) : Config := { fork, features := .ofFork fork }

/-- Switches on one more proposal. -/
def withEip (c : Config) (number : Nat) : Except Features.Error Config := do
  let extraEips := c.extraEips ++ [number]
  let features ← Features.resolve c.fork extraEips
  return { c with extraEips, features }

/-- Switches on some proposals, one after the other. -/
def withEips (c : Config) (numbers : List Nat) : Except Features.Error Config :=
  numbers.foldlM withEip c

/-- Changes the fork and keeps the extra proposals. -/
def withFork (c : Config) (fork : Fork) : Except Features.Error Config := do
  let features ← Features.resolve fork c.extraEips
  return { c with fork, features }

/-- The usual limit on deployed code. -/
def usualCodeLimit : Nat := 0x6000

/-- Limit on deployed code. -/
def codeLimit (c : Config) : Nat := c.codeLimit?.getD usualCodeLimit

/-- Limit on init code, twice that on deployed code if it is not set. -/
def initCodeLimit (c : Config) : Nat :=
  c.initCodeLimit?.getD (Count.satMul c.codeLimit 2)

end Config

end Evm
