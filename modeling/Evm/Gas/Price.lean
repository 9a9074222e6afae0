import Evm.Gas.Schedule
import Evm.Word
import Evm.Bytes

/-!
# Prices that depend on operands

What an instruction pays on top of its base price, and the refunds that storage writes earn.
-/

namespace Evm.Gas

/-- Price of `len` bytes at `price` per word, none if it is no count. -/
def perWord (len price : Nat) : Option Nat := Count.mul? price (Count.words len)

/-- Price of copying `len` bytes. -/
def copy (len : Nat) : Option Nat := perWord len copyWord

/-- Price of hashing `len` bytes. -/
def hash (len : Nat) : Option Nat := perWord len hashWord

/-- Price of hashing `len` bytes of init code for a salted address. -/
def saltedCreate (len : Nat) : Option Nat := perWord len hashWord

/-- Price of logging `len` bytes. -/
def logData (len : Nat) : Option Nat := Count.mul? logByte len

/-- Price of `len` bytes of init code. -/
def initCode (len : Nat) : Nat := Count.satMul initCodeWord (Count.words len)

/-- Price of an exponent, by its significant bytes. -/
def exp (features : Features) (exponent : Word) : Option Nat :=
  if exponent = 0 then some 0
  else
    let byte := if features.has .eip160 then 50 else 10
    Count.mul? byte (exponent.log2 / 8 + 1)

/-- Price of `words` words of memory. -/
def memory (words : Nat) : Nat :=
  Count.satAdd (Count.satMul memoryWord words) (Count.satMul words words / 512)

/-! ## Access to accounts and slots -/

/-- Price of reading a slot, warm or cold. -/
def slotLoad (features : Features) (cold : Bool) : Nat :=
  if features.has .eip2929 && cold then coldSlot else slotRead features

/-- What the first access to a slot costs on top of a warm one. -/
def coldSlotSurcharge (features : Features) (cold : Bool) : Nat :=
  if cold && features.has .eip2929 then coldSlot - warmAccess else 0

/-- What the first access to an account costs on top of a warm one. -/
def coldAccountSurcharge (features : Features) (cold : Bool) : Nat :=
  if cold && features.has .eip2929 then coldAccount - warmAccess else 0

/-- A write to a slot: its value at the start of the transaction, its present value and the new
one. -/
structure SlotWrite where
  initial : Word
  present : Word
  new : Word
  deriving DecidableEq, Repr

/-- Whether writes are metered by their net effect. -/
def netMetering (features : Features) : Bool := features.has .eip2200 || features.has .eip1283

/-- Price of changing a slot from its initial value. -/
def netReset (features : Features) : Nat :=
  if features.has .eip2929 then slotReset - coldSlot else slotReset

/-- Refund for clearing a slot under net metering. -/
def netClearRefund (features : Features) : Int :=
  if features.has .eip3529 then slotReset - coldSlot + accessListSlot else slotClearRefund

/-- Price of a write to a warm slot. -/
def warmSlotStore (features : Features) (w : SlotWrite) : Nat :=
  if netMetering features then
    if w.new = w.present then slotRead features
    else if w.initial = w.present then
      if w.initial = 0 then slotSet else netReset features
    else slotRead features
  else if w.present = 0 ∧ w.new ≠ 0 then slotSet
  else slotReset

/-- Price of a write to a slot. -/
def slotStore (features : Features) (w : SlotWrite) (cold : Bool) : Nat :=
  if cold && features.has .eip2929 then warmSlotStore features w + coldSlot
  else warmSlotStore features w

/-- Refund of a write to a slot, negative where it takes an earlier refund back. -/
def slotRefund (features : Features) (w : SlotWrite) : Int :=
  if netMetering features then
    let clear := netClearRefund features
    if w.new = w.present then 0
    else if w.initial = w.present ∧ w.new = 0 then clear
    else
      let clearing : Int :=
        if w.initial = 0 then 0
        else if w.present = 0 then -clear
        else if w.new = 0 then clear
        else 0
      let restoring : Int :=
        if w.initial = w.new then
          (if w.initial = 0 then slotSet else netReset features) - slotRead features
        else 0
      clearing + restoring
  else if w.present ≠ 0 ∧ w.new = 0 then slotClearRefund
  else 0

/-- What destroying an account depends on. -/
structure Destruction where
  /-- The account held value. -/
  hadValue : Bool
  /-- The beneficiary existed. -/
  targetExists : Bool
  /-- The account had been destroyed in this transaction before. -/
  previouslyDestroyed : Bool
  deriving DecidableEq, Repr

/-- Price of destroying an account. -/
def selfDestruct (features : Features) (d : Destruction) (cold : Bool) : Nat :=
  let creates := !d.targetExists && (d.hadValue || !features.has .eip161)
  (if features.has .eip150 && creates then newAccount else 0) +
    (if features.has .eip2929 && cold then coldAccount else 0)

/-- Price of a call. -/
def call (features : Features) (transfersValue cold createsAccount targetEmpty : Bool) : Nat :=
  let creates :=
    if features.has .eip161 then transfersValue && targetEmpty else createsAccount
  coldAccountSurcharge features cold + (if transfersValue then callValue else 0) +
    (if creates then newAccount else 0)

/-! ## Transactions -/

/-- Gas that a transaction pays before anything runs. -/
def intrinsic (features : Features) (data : Bytes) (isCreate : Bool) (addresses slots : Nat) :
    Nat :=
  let zeros := data.countP (· == 0)
  let accessList :=
    if features.has .eip2930 then addresses * accessListAddress + slots * accessListSlot else 0
  zeros * zeroByte + (data.size - zeros) * nonZeroByte features + accessList +
    (if isCreate && features.has .eip2 then transactionCreate else transaction) +
    (if isCreate && features.has .eip3860 then initCode data.size else 0)

end Evm.Gas
