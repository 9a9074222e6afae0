import Evm.Crypto.Keccak
import Evm.Execution.Basic

/-!
# Stack, memory and byte strings

Instructions that move words between stack, memory and the byte strings of the frame, and those that
read the environment.
-/

namespace Evm

/-- What the field says. -/
def FrameField.read (f : Frame) : FrameField → Word
  | address => Word.ofAddress f.address
  | caller => Word.ofAddress f.caller
  | callValue => f.value
  | callDataSize => BitVec.ofNat 256 f.input.size
  | codeSize => BitVec.ofNat 256 f.code.size
  | returnDataSize => BitVec.ofNat 256 f.returnData.size
  | pc => BitVec.ofNat 256 (f.pc - 1)
  | memorySize => BitVec.ofNat 256 f.memory.size
  | gas => BitVec.ofNat 256 f.gas.remaining

/-- What the field says under a feature set. -/
def EnvField.read (features : Features) (env : Env) : EnvField → Word
  | origin => Word.ofAddress env.transaction.caller
  | gasPrice => env.gasPrice
  | coinbase => Word.ofAddress env.block.beneficiary
  | timestamp => BitVec.ofNat 256 env.block.timestamp
  | number => BitVec.ofNat 256 env.block.number
  | difficulty =>
    if features.has .eip4399 then env.block.randomness?.getD 0 else env.block.difficulty
  | gasLimit => BitVec.ofNat 256 env.block.gasLimit
  | chainId => BitVec.ofNat 256 env.config.chainId
  | baseFee => env.block.baseFee
  | blobBaseFee => env.block.blobBaseFee

namespace Exec

variable {σ : Type}

/-! ## The stack -/

/-- Pushes what a field of the frame says. -/
def pushFrameField (field : FrameField) : Exec σ Unit := do
  push (field.read (← frame))

/-- Pushes what a field of the environment says. -/
def pushEnvField (host : Host σ) (field : EnvField) : Exec σ Unit := do
  push (field.read (← frame).features (← environment host))

/-- Pushes the bytes that follow in the code. -/
def pushImmediate (size : Nat) : Exec σ Unit := do
  let f ← frame
  push (if size = 0 then 0 else (f.code.jumpTable.pushValue? (f.pc - 1)).getD 0)
  update fun f => { f with pc := f.pc + size }

/-- Copies a word of the stack to the top. -/
def dup (n : Nat) : Exec σ Unit := do
  let s := (← frame).stack
  match s.dup? n with
  | some stack => update fun f => { f with stack }
  | none => halt (if s.height < n then .stackUnderflow else .stackOverflow)

/-- Exchanges the top with another word of the stack. -/
def swap (n : Nat) : Exec σ Unit := do
  match (← frame).stack.swap? n with
  | some stack => update fun f => { f with stack }
  | none => halt .stackUnderflow

/-! ## Memory -/

/-- Loads a word from memory. -/
def mload : Exec σ Unit := do
  let start ← count (← operand)
  reserve start 32
  setTop ((← frame).memory.readWord start)

/-- Stores a word in memory. -/
def mstore : Exec σ Unit := do
  let (start, w) ← pop2
  let start ← count start
  reserve start 32
  update fun f => { f with memory := f.memory.writeWord start w }

/-- Stores a byte in memory. -/
def mstore8 : Exec σ Unit := do
  let (start, w) ← pop2
  let start ← count start
  reserve start 1
  update fun f => { f with memory := f.memory.writeByte start (UInt8.ofNat w.toNat) }

/-- Copies within memory. -/
def mcopy : Exec σ Unit := do
  let (dst, src, len) ← pop3
  let len ← count len
  chargePrice (Gas.copy len)
  if len ≠ 0 then
    let dst ← count dst
    let src ← count src
    reserve (Nat.max dst src) len
    update fun f => { f with memory := f.memory.copyWithin dst src len }

/-- Hashes a part of memory. -/
def keccak256 : Exec σ Unit := do
  let (start, len) ← operands2
  let len ← count len
  chargePrice (Gas.hash len)
  let data ← readMemory start len
  setTop (if data.isEmpty then emptyHash else Crypto.Keccak.hash data)

/-! ## Byte strings of the frame -/

/-- Loads a word from the call data. -/
def callDataLoad : Exec σ Unit := do
  let start ← operand
  setTop ((← frame).input.window start.toCount 32).toWord

/-- Copies call data to memory. -/
def copyCallData : Exec σ Unit := do
  let (dst, src, len) ← pop3
  let len ← count len
  chargePrice (Gas.copy len)
  copyToMemory dst src len (← frame).input

/-- Copies code to memory. -/
def copyCode : Exec σ Unit := do
  let (dst, src, len) ← pop3
  let len ← count len
  chargePrice (Gas.copy len)
  copyToMemory dst src len (← frame).code.bytes

/-- Copies return data to memory. Unlike other byte strings it does not go on with zero bytes. -/
def copyReturnData : Exec σ Unit := do
  let (dst, src, len) ← pop3
  let len ← count len
  chargePrice (Gas.copy len)
  let data := (← frame).returnData
  if data.size < Count.satAdd src.toCount len then halt .outOfOffset
  copyToMemory dst src len data

/-- Copies a byte string of the frame to memory. -/
def copy : CopySource → Exec σ Unit
  | .callData => copyCallData
  | .code => copyCode
  | .returnData => copyReturnData

/-! ## The environment -/

/-- Replaces a block number by the hash of that block. -/
def blockHash (host : Host σ) : Exec σ Unit := do
  let number ← operand
  setTop ((← environment host).block.hashOf number.toCount)

/-- Replaces an index by the blob hash at that place. -/
def blobHash (host : Host σ) : Exec σ Unit := do
  let index ← operand
  setTop (((← environment host).transaction.blobHashes[index.toCount]?).getD 0)

end Exec

end Evm
