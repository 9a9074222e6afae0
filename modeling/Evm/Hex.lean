import Evm.Bytes
import Evm.Crypto.Keccak

/-!
# Hexadecimal text

Byte strings and addresses as text: plain hexadecimal digits, and the mixed-case spelling of an
address whose letters carry a checksum.
-/

namespace Evm.Hex

/-- The lower-case hexadecimal digit of a number below 16. -/
def digit (n : Nat) : Char :=
  if n < 10 then Char.ofNat (48 + n) else Char.ofNat (87 + n)

/-- The number of a hexadecimal digit. -/
def value? (c : Char) : Option Nat :=
  if '0' ≤ c ∧ c ≤ '9' then some (c.toNat - 48)
  else if 'a' ≤ c ∧ c ≤ 'f' then some (c.toNat - 87)
  else if 'A' ≤ c ∧ c ≤ 'F' then some (c.toNat - 55)
  else none

/-- Two digits per byte. -/
def encode (b : Bytes) : String :=
  b.foldl (fun s x => (s.push (digit (x.toNat / 16))).push (digit (x.toNat % 16))) ""

/-- Reads digits two by two, none for an odd number of them or for any other character. -/
def decode? : List Char → Option (List UInt8)
  | [] => some []
  | [_] => none
  | hi :: lo :: rest => do
    let h ← value? hi
    let l ← value? lo
    let tail ← decode? rest
    return UInt8.ofNat (16 * h + l) :: tail

/-- The digits of `a`, a letter upper case where the hash of all digits has a nibble of at least
eight at its place. -/
def checksumAddress (a : Address) : String :=
  let digits := encode (Bytes.ofAddress a)
  let nibbles := (encode (Bytes.ofWord (Crypto.Keccak.hash digits.toUTF8.data))).toList
  let cased := (digits.toList.zip nibbles).map fun (c, n) =>
    if (value? n).any (8 ≤ ·) then c.toUpper else c
  "0x" ++ String.ofList cased

end Evm.Hex
