import Evm.Execution.Basic

/-!
# Accounts, storage and logs

Instructions that read and change the state behind the host.
-/

namespace Evm.Exec

variable {σ : Type}

/-! ## Accounts -/

/-- What a host says about an account. -/
def loadAccountField (host : Host σ) (field : AccountField) (a : Address) :
    HostM σ (Loaded Word) := do
  match field with
  | .balance => host.balance a
  | .codeSize =>
    let code ← host.code a
    return ⟨BitVec.ofNat 256 code.value.size, code.isCold⟩
  | .codeHash => host.codeHash a

/-- Replaces an address by what a field of that account says. -/
def accountField (host : Host σ) (field : AccountField) : Exec σ Unit := do
  let loaded ← ask (loadAccountField host field (← operand).toAddress)
  charge (Gas.coldAccountSurcharge (← frame).features loaded.isCold)
  setTop loaded.value

/-- Pushes the balance of the running account. -/
def selfBalance (host : Host σ) : Exec σ Unit := do
  let balance ← ask (host.balance (← frame).address)
  push balance.value

/-- Price of copying `len` bytes of an account's code. -/
def extCodeCopyPrice (features : Features) (len : Nat) (isCold : Bool) : Option Nat :=
  (Gas.copy len).map (· + Gas.coldAccountSurcharge features isCold)

/-- Copies the code of an account to memory. -/
def extCodeCopy (host : Host σ) : Exec σ Unit := do
  let (account, dst, src, len) ← pop4
  let code ← ask (host.code account.toAddress)
  let len ← count len
  chargePrice (extCodeCopyPrice (← frame).features len code.isCold)
  copyToMemory dst src len code.value.bytes

/-- Destroys the running account. -/
def selfDestruct (host : Host σ) : Exec σ Unit := do
  forbidStatic
  let target ← pop1
  let done ← ask (host.selfDestruct (← frame).address target.toAddress)
  let features := (← frame).features
  if !features.has .eip3529 && !done.value.previouslyDestroyed then
    update fun f => { f with gas := f.gas.addRefund Gas.selfDestructRefund }
  charge (Gas.selfDestruct features done.value done.isCold)
  halt .selfDestruct

/-! ## Storage -/

/-- Loads a slot. -/
def sload (host : Host σ) : Exec σ Unit := do
  let slot ← operand
  let value ← ask (host.loadSlot (← frame).address slot)
  charge (Gas.coldSlotSurcharge (← frame).features value.isCold)
  setTop value.value

/-- Stores a slot. With no more than the stipend left it fails before anything is stored. -/
def sstore (host : Host σ) : Exec σ Unit := do
  forbidStatic
  let (slot, value) ← pop2
  let f ← frame
  if f.features.has .eip2200 && f.gas.remaining ≤ Gas.callStipend then halt .outOfGas
  let write ← ask (host.storeSlot f.address slot value)
  charge (Gas.slotStore f.features write.value write.isCold)
  update fun f => { f with gas := f.gas.addRefund (Gas.slotRefund f.features write.value) }

/-- Loads a slot of transient storage. -/
def tload (host : Host σ) : Exec σ Unit := do
  let slot ← operand
  setTop (← tell (host.loadTransient (← frame).address slot))

/-- Stores a slot of transient storage. -/
def tstore (host : Host σ) : Exec σ Unit := do
  forbidStatic
  let (slot, value) ← pop2
  tell (host.storeTransient (← frame).address slot value)

/-! ## Logs -/

/-- Logs a part of memory with some topics. -/
def log (host : Host σ) (topics : Nat) : Exec σ Unit := do
  forbidStatic
  let (start, len) ← pop2
  let len ← count len
  chargePrice (Gas.logData len)
  let data ← readMemory start len
  let topics ← pop topics
  tell (host.log { address := (← frame).address, topics := topics.toList, data })

end Evm.Exec
