import Evm.Instruction.Info

/-!
# Fixed prices

The constants of the gas schedule, and the part of an instruction's price that depends on the
feature set alone.
-/

namespace Evm.Gas

/-- Price per word of memory. -/
def memoryWord : Nat := 3

/-- Price per word of copied bytes. -/
def copyWord : Nat := 3

/-- Price per word of hashed bytes. -/
def hashWord : Nat := 6

/-- Price of a log, and of each of its topics. -/
def log : Nat := 375

/-- Price per byte of logged data. -/
def logByte : Nat := 8

/-- Price of a creation. -/
def create : Nat := 32000

/-- Price per byte of deployed code. -/
def codeDeposit : Nat := 200

/-- Price per word of init code. -/
def initCodeWord : Nat := 2

/-- Price of sending value with a call. -/
def callValue : Nat := 9000

/-- Gas that the receiver of value gets for nothing. -/
def callStipend : Nat := 2300

/-- Price of bringing an account into existence. -/
def newAccount : Nat := 25000

/-- Price of giving a slot its first value. -/
def slotSet : Nat := 20000

/-- Price of changing the value of a slot. -/
def slotReset : Nat := 5000

/-- Refund for clearing a slot. -/
def slotClearRefund : Int := 15000

/-- Refund for an account that destroys itself. -/
def selfDestructRefund : Int := 24000

/-- Price of the first access to a slot in a transaction. -/
def coldSlot : Nat := 2100

/-- Price of the first access to an account in a transaction. -/
def coldAccount : Nat := 2600

/-- Price of every later access. -/
def warmAccess : Nat := 100

/-- Price of a transaction. -/
def transaction : Nat := 21000

/-- Price of a transaction that creates a contract. -/
def transactionCreate : Nat := 53000

/-- Price per zero byte of transaction data. -/
def zeroByte : Nat := 4

/-- Price per other byte of transaction data. -/
def nonZeroByte (features : Features) : Nat := if features.has .eip2200 then 16 else 68

/-- Price per address of an access list. -/
def accessListAddress : Nat := 2400

/-- Price per slot of an access list. -/
def accessListSlot : Nat := 1900

/-- Price of reading a slot that is warm. -/
def slotRead (features : Features) : Nat :=
  if features.has .eip2929 then warmAccess
  else if features.has .eip1884 then 800
  else if features.has .eip150 then 200
  else 50

/-- Price of looking at another account's code, or of calling it. -/
def accountAccess (features : Features) : Nat :=
  if features.has .eip2929 then warmAccess
  else if features.has .eip150 then 700
  else 20

/-- Price of reading a balance. -/
def balanceRead (features : Features) : Nat :=
  if features.has .eip2929 then warmAccess
  else if features.has .eip1884 then 700
  else if features.has .eip150 then 400
  else 20

/-- Price of reading a code hash. -/
def codeHashRead (features : Features) : Nat :=
  if features.has .eip2929 then warmAccess
  else if features.has .eip1884 then 700
  else 400

/-- The part of an instruction's price that is charged before it runs. -/
def base (features : Features) : Instruction → Nat
  | .stop | .sstore | .ret | .revert | .invalid => 0
  | .binary .mul | .binary .div | .binary .sdiv | .binary .mod | .binary .smod
  | .binary .signExtend => 5
  | .unary _ | .binary _ => 3
  | .ternary _ => 8
  | .exp => 10
  | .keccak256 => 30
  | .frameField _ | .envField _ => 2
  | .accountField .balance => balanceRead features
  | .accountField .codeSize => accountAccess features
  | .accountField .codeHash => codeHashRead features
  | .selfBalance => 5
  | .callDataLoad | .copy _ => 3
  | .extCodeCopy => accountAccess features
  | .blockHash => 20
  | .blobHash => 3
  | .pop => 2
  | .mload | .mstore | .mstore8 | .mcopy => 3
  | .sload => slotRead features
  | .tload | .tstore => warmAccess
  | .jump => 8
  | .jumpI => 10
  | .jumpDest => 1
  | .beginSub => 2
  | .returnSub => 5
  | .jumpSub => 10
  | .push size => if size = 0 then 2 else 3
  | .dup _ | .swap _ => 3
  | .log topics => log + log * topics
  | .create _ => create
  | .call _ => accountAccess features
  | .selfDestruct => if features.has .eip150 then 5000 else 0

/-- The base price of the instruction that a byte stands for, zero for a byte without one. -/
def baseOfByte (features : Features) (b : UInt8) : Nat :=
  match Instruction.decode features b with
  | some i => base features i
  | none => 0

end Evm.Gas
