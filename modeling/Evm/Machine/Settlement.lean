import Evm.Machine

/-!
# Before and after the outermost frame

What a transaction warms and pays before its message runs, and how gas and fees are settled
afterwards.
-/

namespace Evm

namespace Gas.Meter

/-- The gas of a transaction, from the end of its outermost frame: unused gas comes back unless the
frame halted, refunds count only if it succeeded, and they are bounded. -/
def ofTransaction (features : Features) (gasLimit : Nat) (o : Outcome) : Meter :=
  let m := if o.status.isError then empty gasLimit else (empty gasLimit).giveBack o.gas.remaining
  let m := if o.status.isOk then m.addRefund o.gas.refunded else m
  m.capRefund (features.has .eip3529)

/-- The gas that is paid for in the end. -/
def used (m : Meter) : Nat := m.spent - m.refunded.toNat

/-- The gas that is paid back in the end. -/
def returned (m : Meter) : Nat := m.remaining + m.refunded.toNat

end Gas.Meter

/-- How a transaction that succeeded ended. -/
inductive SuccessReason where
  | stop
  | ret
  | selfDestruct
  deriving DecidableEq, Repr

namespace SuccessReason

/-- The name of the reason in reports. -/
def name : SuccessReason → String
  | stop => "Stop"
  | ret => "Return"
  | selfDestruct => "SelfDestruct"

/-- The reason that a status gives, if it is a success. -/
def ofStatus? : Status → Option SuccessReason
  | .running | .stop => some stop
  | .ret => some ret
  | .selfDestruct => some selfDestruct
  | _ => none

end SuccessReason

/-- What a transaction gives back. -/
inductive TransactionOutput where
  | call (data : Bytes)
  | create (code : Bytes) (address? : Option Address)
  deriving DecidableEq, Repr

/-- The bytes of the output. -/
def TransactionOutput.data : TransactionOutput → Bytes
  | call data => data
  | create code _ => code

/-- How a transaction ended. -/
inductive ExecutionResult where
  | success (reason : SuccessReason) (gasUsed gasRefunded : Nat) (logs : Array Log)
    (output : TransactionOutput)
  | revert (gasUsed : Nat) (output : Bytes)
  | halt (reason : Status) (gasUsed : Nat)
  deriving DecidableEq, Repr

namespace ExecutionResult

/-- Whether the transaction succeeded. -/
def isSuccess : ExecutionResult → Bool
  | success .. => true
  | _ => false

/-- Whether the transaction halted. -/
def isHalt : ExecutionResult → Bool
  | halt .. => true
  | _ => false

/-- The gas that was paid for. -/
def gasUsed : ExecutionResult → Nat
  | success _ gasUsed _ _ _ => gasUsed
  | revert gasUsed _ => gasUsed
  | halt _ gasUsed => gasUsed

/-- The new contract, if one was created. -/
def createdAddress? : ExecutionResult → Option Address
  | success _ _ _ _ (.create _ address?) => address?
  | _ => none

/-- The bytes given back, none by a transaction that halted. -/
def output? : ExecutionResult → Option Bytes
  | success _ _ _ _ output => some output.data
  | revert _ output => some output
  | halt .. => none

/-- The logs, none of a transaction that did not succeed. -/
def logs : ExecutionResult → Array Log
  | success _ _ _ logs _ => logs
  | _ => #[]

/-- The result of a transaction, from that of its outermost frame and the settled gas. -/
def ofFrame (r : FrameResult) (gas : Gas.Meter) (isCreate : Bool) : ExecutionResult :=
  let o := r.outcome
  match SuccessReason.ofStatus? o.status with
  | some reason =>
    success reason gas.used gas.refunded.toNat r.logs
      (if isCreate then .create o.output r.address? else .call o.output)
  | none => if o.status.isRevert then revert gas.used o.output else halt o.status gas.used

end ExecutionResult

namespace Settlement

/-! ## Before -/

/-- The accounts that are warm from the start of a transaction. -/
def warmAccounts (env : Env) (precompiled : List Address) : List Address :=
  let tx := env.transaction
  tx.caller :: tx.to?.toList ++ precompiled ++
    (if env.features.has .eip3651 then [env.block.beneficiary] else []) ++
    tx.accessList.map AccessListItem.address

/-- The slots that are warm from the start of a transaction. -/
def warmSlots (env : Env) : List Slot :=
  env.transaction.accessList.flatMap fun item => item.slots.map fun index => ⟨item.address, index⟩

/-- The journal with everything warm that is so from the start. -/
def warmUp (env : Env) (precompiled : List Address) (j : Journal) : Journal :=
  (warmSlots env).foldl Journal.keepWarmSlot
    ((warmAccounts env precompiled).foldl Journal.keepWarm j)

/-- What the sender has to hold, bounded by the largest word. -/
def requiredFunds (tx : Transaction) : Word :=
  Word.satAdd (Word.satMul (BitVec.ofNat 256 tx.gasLimit) tx.gasPrice) tx.value

/-- What the sender pays for all gas of the transaction. -/
def gasCost (env : Env) : Word :=
  Word.satMul (BitVec.ofNat 256 env.transaction.gasLimit) env.gasPrice

/-- The next nonce, the largest one staying as it is. -/
def nextNonce (n : UInt64) : UInt64 := if n = UInt64.ofNat Count.max then n else n + 1

/-- What the sender pays from. Where funds are not checked, the missing ones are supplied. -/
def funds (env : Env) (sender : Account) : Word :=
  let required := requiredFunds env.transaction
  if env.config.skipBalanceCheck && sender.balance < required then required else sender.balance

/-- The nonce of the sender once it has paid. It goes up for a call; a creation does that itself. -/
def chargedNonce (env : Env) (sender : Account) : UInt64 :=
  if env.transaction.isCreate then sender.nonce else nextNonce sender.nonce

/-- Has the sender pay for the gas. -/
def chargeSender [Ledger] : ContextM StateError Unit := do
  let env := (← get).env
  let caller := env.transaction.caller
  let sender ← Context.onWorld (World.accountOrEmpty caller)
  let balance ← Context.onWorld (Ledger.withdraw (funds env sender) (gasCost env))
  let nonce := chargedNonce env sender
  Context.onWorld (World.putAccount caller { sender with balance, nonce })
  modify fun c => { c with journal := c.journal.touch caller }

/-! ## After -/

/-- Adds to the balance of an account. -/
def credit [Ledger] (a : Address) (value : Word) : WorldM Unit := do
  let record ← World.accountOrEmpty a
  World.putAccount a { record with balance := ← Ledger.deposit record.balance value }

/-- Pays the sender back for the gas that was not used. -/
def reimburse [Ledger] (gas : Gas.Meter) : ContextM StateError Unit := do
  let env := (← get).env
  let value := Word.satMul env.gasPrice (BitVec.ofNat 256 gas.returned)
  Context.onWorld (credit env.transaction.caller value)

/-- Price per gas that goes to the beneficiary; a base fee that is burned does not. -/
def beneficiaryPrice (env : Env) : Word :=
  if env.burnsBaseFee then Word.satSub env.gasPrice env.block.baseFee else env.gasPrice

/-- Pays the beneficiary. -/
def reward [Ledger] (gas : Gas.Meter) : ContextM StateError Unit := do
  let env := (← get).env
  let value := Word.satMul (beneficiaryPrice env) (BitVec.ofNat 256 gas.used)
  Context.onWorld (credit env.block.beneficiary value)
  modify fun c => { c with journal := c.journal.touch env.block.beneficiary }

/-- Deletes the accounts that were destroyed. -/
def deleteDestroyed (destroyed : AddressSet) : ContextM StateError Unit :=
  Context.onWorld (destroyed.toList.forM World.deleteAccount)

end Settlement

end Evm
