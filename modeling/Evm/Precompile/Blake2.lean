import Evm.Crypto.Blake2b
import Evm.Precompile.Basic

/-!
# The compression function of BLAKE2b

The input is the number of rounds, the state, the message block, the two offset counters and the
flag of the last block. All words but the number of rounds are little-endian.
-/

namespace Evm.Precompile.Blake2

/-- The length of an input. -/
def inputSize : Nat := 213

/-- The number of rounds. -/
def rounds (input : Bytes) : Nat := (input.window 0 4).toNat

/-- The little-endian word at `start`. -/
def word (input : Bytes) (start : Nat) : UInt64 :=
  UInt64.ofNat (Bytes.toNat (input.window start 8).reverse)

/-- The little-endian bytes of a word. -/
def wordBytes (w : UInt64) : Bytes := (Bytes.ofNat 8 w.toNat).reverse

/-- The compressed state. -/
def compress (input : Bytes) (last : Bool) : Bytes :=
  let h := Array.ofFn fun i : Fin 8 => word input (4 + 8 * i)
  let m := Array.ofFn fun i : Fin 16 => word input (68 + 8 * i)
  let out := Crypto.Blake2b.compress (rounds input) h m (word input 196) (word input 204) last
  out.flatMap wordBytes

/-- Compresses the state at one gas per round. An input of the wrong length costs nothing. -/
def run (input : Bytes) (gasLimit : Nat) : Except Error Output :=
  if input.size ≠ inputSize then .error .blake2Length
  else do
    let gasUsed := rounds input
    charge gasUsed gasLimit
    match input.getD 212 0 with
    | 0 => return { gasUsed, bytes := compress input false }
    | 1 => return { gasUsed, bytes := compress input true }
    | _ => throw .blake2Flag

end Evm.Precompile.Blake2
