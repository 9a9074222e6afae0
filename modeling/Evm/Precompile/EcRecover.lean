import Evm.Precompile.Basic
import Evm.Precompile.Library

/-!
# Signer recovery

The input is a digest, a word that is 27 or 28 and tells two candidates apart, and the two numbers
of the signature. It is read as if it went on with zero bytes.
-/

namespace Evm.Precompile.EcRecover

/-- The price, also of an input that has no signer. -/
def price : Nat := 3000

/-- The length of an input. -/
def inputSize : Nat := 128

/-- Whether the word that tells the candidates apart is 27 or 28. -/
def isMarked (input : Bytes) : Bool :=
  (input.extract 32 63).all (· == 0) && (input.getD 63 0 == 27 || input.getD 63 0 == 28)

/-- The word of the address that signed: the hash of the public key without its leading byte, as far
as it belongs to the address. A signature with the larger second number is turned into the one with
the smaller, which exchanges the candidates. -/
def recover? (keccak : Bytes → Bytes) (scheme : SignatureScheme) (signature digest : Bytes)
    (odd : Bool) : Option Bytes := do
  let given ← scheme.signature? signature
  let (sig, odd) :=
    match scheme.normalize? given with
    | some low => (low, !odd)
    | none => (given, odd)
  let key ← scheme.recoverKey? sig digest odd
  return Array.replicate 12 0 ++ (keccak (key.drop 1)).drop 12

/-- Recovers the address that signed. There is no output if there is none. -/
def run (keccak : Bytes → Bytes) (scheme : SignatureScheme) (input : Bytes) (gasLimit : Nat) :
    Except Error Output := do
  charge price gasLimit
  let input := input.fitRight inputSize
  if isMarked input then
    let signer? := recover? keccak scheme (input.extract 64 128) (input.extract 0 32)
      (input.getD 63 0 == 28)
    return { gasUsed := price, bytes := signer?.getD #[] }
  else return { gasUsed := price, bytes := #[] }

end Evm.Precompile.EcRecover
