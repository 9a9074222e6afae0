import Evm.Code
import Evm.Rlp

/-!
# Account records

What is stored of an account besides its slots and its code, and how the record is written.
-/

namespace Evm

/-- The root of an empty storage tree. -/
def emptyRoot : Hash := 0x56e81f171bcc55a6ff8345e692c0f86e5b48e01b996cadc001622fb5e363b421

/-- An account. The storage root is kept for whoever owns the store; running code never looks at
it. -/
structure Account where
  nonce : UInt64 := 0
  balance : Word := 0
  storageRoot : Hash := emptyRoot
  codeHash : Hash := emptyHash
  deriving DecidableEq, Repr, Inhabited

namespace Account

/-- Whether the account has code. -/
def hasCode (a : Account) : Bool := a.codeHash != emptyHash && a.codeHash != 0

/-- Whether the account has no code, a zero nonce and no balance. -/
def isEmpty (a : Account) : Bool := a.nonce == 0 && a.balance == 0 && !a.hasCode

/-- The written form of the record. -/
def encode (a : Account) : List UInt8 :=
  Rlp.encodeList [Rlp.encodeNat a.nonce.toNat, Rlp.encodeNat a.balance.toNat,
    Rlp.encodeHash a.storageRoot, Rlp.encodeHash a.codeHash]

/-- Reads the fields of a record. -/
def fields : Rlp.Reader Account := do
  let nonce ← Rlp.nat64
  let balance ← Rlp.word
  let storageRoot ← Rlp.hash
  let codeHash ← Rlp.hash
  return { nonce, balance, storageRoot, codeHash }

/-- Reads a record that is the whole input. -/
def decode (input : List UInt8) : Except Rlp.Error Account :=
  Rlp.exact (Rlp.list fields) input

end Account

end Evm
