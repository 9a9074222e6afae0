import Evm.Features

/-!
# Instructions

What a byte of code tells the machine to do. Instructions that differ only in the function they
compute or the field they read share a constructor.
-/

namespace Evm

/-- Functions of one word. -/
inductive UnaryOp where
  | isZero
  | not
  deriving DecidableEq, Repr

/-- Functions of two words. -/
inductive BinaryOp where
  | add
  | mul
  | sub
  | div
  | sdiv
  | mod
  | smod
  | signExtend
  | lt
  | gt
  | slt
  | sgt
  | eq
  | and
  | or
  | xor
  | byte
  | shl
  | shr
  | sar
  deriving DecidableEq, Repr

/-- Functions of three words. -/
inductive TernaryOp where
  | addMod
  | mulMod
  deriving DecidableEq, Repr

/-- Words that the running frame knows. -/
inductive FrameField where
  | address
  | caller
  | callValue
  | callDataSize
  | codeSize
  | returnDataSize
  | pc
  | memorySize
  | gas
  deriving DecidableEq, Repr

/-- Words that the environment fixes for the whole transaction. -/
inductive EnvField where
  | origin
  | gasPrice
  | coinbase
  | timestamp
  | number
  | difficulty
  | gasLimit
  | chainId
  | baseFee
  | blobBaseFee
  deriving DecidableEq, Repr

/-- Words about an account named on the stack. -/
inductive AccountField where
  | balance
  | codeSize
  | codeHash
  deriving DecidableEq, Repr

/-- Byte strings of the frame that can be copied to memory. -/
inductive CopySource where
  | callData
  | code
  | returnData
  deriving DecidableEq, Repr

/-- The four ways to call. -/
inductive CallScheme where
  | call
  | callCode
  | delegateCall
  | staticCall
  deriving DecidableEq, Repr

/-- One instruction. -/
inductive Instruction where
  | stop
  | unary (op : UnaryOp)
  | binary (op : BinaryOp)
  | ternary (op : TernaryOp)
  | exp
  | keccak256
  | frameField (field : FrameField)
  | envField (field : EnvField)
  | accountField (field : AccountField)
  | selfBalance
  | callDataLoad
  | copy (source : CopySource)
  | extCodeCopy
  | blockHash
  | blobHash
  | pop
  | mload
  | mstore
  | mstore8
  | mcopy
  | sload
  | sstore
  | tload
  | tstore
  | jump
  | jumpI
  | jumpDest
  | beginSub
  | returnSub
  | jumpSub
  /-- Pushes the `size` bytes that follow. -/
  | push (size : Nat)
  /-- Duplicates the word at place `depth`, the top being at place 1. -/
  | dup (depth : Nat)
  /-- Exchanges the top with the word `depth` places below it. -/
  | swap (depth : Nat)
  | log (topics : Nat)
  /-- Creates a contract, at an address that a salt from the stack takes part in or not. -/
  | create (salted : Bool)
  | call (scheme : CallScheme)
  | ret
  | revert
  | invalid
  | selfDestruct
  deriving DecidableEq, Repr

namespace Instruction

/-- The subroutine instructions, which replace transient storage and the memory copy. -/
def subroutine? : UInt8 → Option Instruction
  | 0x5c => some .beginSub
  | 0x5d => some .returnSub
  | 0x5e => some .jumpSub
  | _ => none

/-- The instruction that a byte stands for when there are no subroutines. -/
def ofByte? : UInt8 → Option Instruction
  | 0x00 => some .stop
  | 0x01 => some (.binary .add)
  | 0x02 => some (.binary .mul)
  | 0x03 => some (.binary .sub)
  | 0x04 => some (.binary .div)
  | 0x05 => some (.binary .sdiv)
  | 0x06 => some (.binary .mod)
  | 0x07 => some (.binary .smod)
  | 0x08 => some (.ternary .addMod)
  | 0x09 => some (.ternary .mulMod)
  | 0x0a => some .exp
  | 0x0b => some (.binary .signExtend)
  | 0x10 => some (.binary .lt)
  | 0x11 => some (.binary .gt)
  | 0x12 => some (.binary .slt)
  | 0x13 => some (.binary .sgt)
  | 0x14 => some (.binary .eq)
  | 0x15 => some (.unary .isZero)
  | 0x16 => some (.binary .and)
  | 0x17 => some (.binary .or)
  | 0x18 => some (.binary .xor)
  | 0x19 => some (.unary .not)
  | 0x1a => some (.binary .byte)
  | 0x1b => some (.binary .shl)
  | 0x1c => some (.binary .shr)
  | 0x1d => some (.binary .sar)
  | 0x20 => some .keccak256
  | 0x30 => some (.frameField .address)
  | 0x31 => some (.accountField .balance)
  | 0x32 => some (.envField .origin)
  | 0x33 => some (.frameField .caller)
  | 0x34 => some (.frameField .callValue)
  | 0x35 => some .callDataLoad
  | 0x36 => some (.frameField .callDataSize)
  | 0x37 => some (.copy .callData)
  | 0x38 => some (.frameField .codeSize)
  | 0x39 => some (.copy .code)
  | 0x3a => some (.envField .gasPrice)
  | 0x3b => some (.accountField .codeSize)
  | 0x3c => some .extCodeCopy
  | 0x3d => some (.frameField .returnDataSize)
  | 0x3e => some (.copy .returnData)
  | 0x3f => some (.accountField .codeHash)
  | 0x40 => some .blockHash
  | 0x41 => some (.envField .coinbase)
  | 0x42 => some (.envField .timestamp)
  | 0x43 => some (.envField .number)
  | 0x44 => some (.envField .difficulty)
  | 0x45 => some (.envField .gasLimit)
  | 0x46 => some (.envField .chainId)
  | 0x47 => some .selfBalance
  | 0x48 => some (.envField .baseFee)
  | 0x49 => some .blobHash
  | 0x4a => some (.envField .blobBaseFee)
  | 0x50 => some .pop
  | 0x51 => some .mload
  | 0x52 => some .mstore
  | 0x53 => some .mstore8
  | 0x54 => some .sload
  | 0x55 => some .sstore
  | 0x56 => some .jump
  | 0x57 => some .jumpI
  | 0x58 => some (.frameField .pc)
  | 0x59 => some (.frameField .memorySize)
  | 0x5a => some (.frameField .gas)
  | 0x5b => some .jumpDest
  | 0x5c => some .tload
  | 0x5d => some .tstore
  | 0x5e => some .mcopy
  | 0xf0 => some (.create false)
  | 0xf1 => some (.call .call)
  | 0xf2 => some (.call .callCode)
  | 0xf3 => some .ret
  | 0xf4 => some (.call .delegateCall)
  | 0xf5 => some (.create true)
  | 0xfa => some (.call .staticCall)
  | 0xfd => some .revert
  | 0xfe => some .invalid
  | 0xff => some .selfDestruct
  | b =>
    let n := b.toNat
    if 0x5f ≤ n ∧ n ≤ 0x7f then some (.push (n - 0x5f))
    else if 0x80 ≤ n ∧ n ≤ 0x8f then some (.dup (n - 0x7f))
    else if 0x90 ≤ n ∧ n ≤ 0x9f then some (.swap (n - 0x8f))
    else if 0xa0 ≤ n ∧ n ≤ 0xa4 then some (.log (n - 0xa0))
    else none

/-- The instruction that a byte stands for under a feature set, active or not. -/
def decode (features : Features) (b : UInt8) : Option Instruction :=
  if features.has .eip2315 then (subroutine? b).or (ofByte? b) else ofByte? b

end Instruction

/-- Number of immediate bytes that follow a byte of code: those of the pushes. -/
def immediateSize (b : UInt8) : Nat :=
  if 0x60 ≤ b.toNat ∧ b.toNat ≤ 0x7f then b.toNat - 0x5f else 0

end Evm
