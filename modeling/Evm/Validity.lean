import Evm.Env
import Evm.Gas.Price
import Evm.State.Account

/-!
# Validity of transactions

What is checked before a transaction runs: against the block and the configuration, against the gas
that it needs in any case, and against the record of its sender.
-/

namespace Evm

/-- Why a transaction is rejected. -/
inductive InvalidTransaction where
  | priorityFeeAboveMaxFee
  | gasPriceBelowBaseFee
  | gasLimitAboveBlock
  | gasLimitBelowIntrinsic (intrinsic gasLimit : Nat)
  | callerHasCode
  | lackOfFunds (fee balance : Word)
  | paymentOverflow
  | nonceOverflow
  | nonceTooHigh (given expected : UInt64)
  | nonceTooLow (given expected : UInt64)
  | initCodeTooLarge
  | wrongChainId
  | accessListUnsupported
  | blobHashesUnsupported
  deriving DecidableEq, Repr

/-- The name of the error in reports. -/
def InvalidTransaction.name : InvalidTransaction → String
  | priorityFeeAboveMaxFee => "PriorityFeeGreaterThanMaxFee"
  | gasPriceBelowBaseFee => "GasPriceLessThanBasefee"
  | gasLimitAboveBlock => "CallerGasLimitMoreThanBlock"
  | gasLimitBelowIntrinsic _ _ => "CallGasCostMoreThanGasLimit"
  | callerHasCode => "RejectCallerWithCode"
  | lackOfFunds _ _ => "LackOfFundForMaxFee"
  | paymentOverflow => "OverflowPaymentInTransaction"
  | nonceOverflow => "NonceOverflowInTransaction"
  | nonceTooHigh _ _ => "NonceTooHigh"
  | nonceTooLow _ _ => "NonceTooLow"
  | initCodeTooLarge => "CreateInitCodeSizeLimit"
  | wrongChainId => "InvalidChainId"
  | accessListUnsupported => "AccessListNotSupported"
  | blobHashesUnsupported => "BlobVersionedHashesNotSupported"

/-- What the error says. -/
def InvalidTransaction.message : InvalidTransaction → String
  | priorityFeeAboveMaxFee => "priority fee is greater than max fee"
  | gasPriceBelowBaseFee => "gas price is less than basefee"
  | gasLimitAboveBlock => "caller gas limit exceeds the block gas limit"
  | gasLimitBelowIntrinsic intrinsic gasLimit =>
    s!"call gas cost ({intrinsic}) exceeds the gas limit ({gasLimit})"
  | callerHasCode => "reject transactions from senders with deployed code"
  | lackOfFunds fee balance => s!"lack of funds ({balance.toNat}) for max fee ({fee.toNat})"
  | paymentOverflow => "overflow payment in transaction"
  | nonceOverflow => "nonce overflow in transaction"
  | nonceTooHigh given expected => s!"nonce {given} too high, expected {expected}"
  | nonceTooLow given expected => s!"nonce {given} too low, expected {expected}"
  | initCodeTooLarge => "create initcode size limit"
  | wrongChainId => "invalid chain ID"
  | accessListUnsupported => "access list is not supported"
  | blobHashesUnsupported => "blob versioned hashes are not supported"

namespace Env

/-- Whether the base fee is burned and bounds the gas price from below. -/
def burnsBaseFee (env : Env) : Bool := env.config.fork.includes .london

/-- Whether the transaction is for this chain. -/
def chainIdFits (env : Env) : Bool := env.transaction.chainId?.all (· == env.config.chainId)

/-- Checks the fees against each other and against the base fee. -/
def checkFees (env : Env) : Except InvalidTransaction Unit := do
  if env.burnsBaseFee then
    if env.transaction.priorityFee?.any (env.transaction.gasPrice < ·) then
      throw .priorityFeeAboveMaxFee
    if !env.config.skipBaseFeeCheck && env.gasPrice < env.block.baseFee then
      throw .gasPriceBelowBaseFee

/-- Checks the transaction against the block and the configuration. -/
def checkBlock (env : Env) : Except InvalidTransaction Unit := do
  let tx := env.transaction
  if !env.chainIdFits then throw .wrongChainId
  if env.block.gasLimit < tx.gasLimit then throw .gasLimitAboveBlock
  env.checkFees
  if !tx.accessList.isEmpty && !env.features.has .eip2930 then throw .accessListUnsupported
  if !tx.blobHashes.isEmpty && !env.features.has .eip4844 then throw .blobHashesUnsupported
  if tx.isCreate && env.features.has .eip3860 && env.config.initCodeLimit < tx.data.size then
    throw .initCodeTooLarge

/-- Gas that the transaction pays before anything runs. -/
def intrinsicGas (env : Env) : Nat :=
  let tx := env.transaction
  Gas.intrinsic env.features tx.data tx.isCreate tx.accessList.length tx.accessListSlots

/-- The intrinsic gas, if the gas limit covers it. -/
def checkIntrinsicGas (env : Env) : Except InvalidTransaction Nat :=
  if env.transaction.gasLimit < env.intrinsicGas then
    .error (.gasLimitBelowIntrinsic env.intrinsicGas env.transaction.gasLimit)
  else .ok env.intrinsicGas

/-- The most that the transaction can cost its sender, if that is a word. -/
def maxCost (env : Env) : Except InvalidTransaction Word :=
  let tx := env.transaction
  let cost := tx.gasLimit * tx.gasPrice.toNat + tx.value.toNat
  if cost ≤ Word.max.toNat then .ok (BitVec.ofNat 256 cost) else .error .paymentOverflow

/-- Checks the nonce against that of the sender. -/
def checkNonce (env : Env) (sender : Account) : Except InvalidTransaction Unit :=
  let given := env.transaction.nonce
  if env.config.skipNonceCheck then .ok ()
  else if sender.nonce < given then .error (.nonceTooHigh given sender.nonce)
  else if given < sender.nonce then .error (.nonceTooLow given sender.nonce)
  else .ok ()

/-- Checks the transaction against the record of its sender. -/
def checkSender (env : Env) (sender : Account) : Except InvalidTransaction Unit := do
  if sender.hasCode then throw .callerHasCode
  if sender.nonce = UInt64.ofNat Count.max then throw .nonceOverflow
  env.checkNonce sender
  let cost ← env.maxCost
  if !env.config.skipBalanceCheck && sender.balance < cost then
    throw (.lackOfFunds cost sender.balance)

end Env

end Evm
