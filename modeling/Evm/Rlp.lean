import Evm.Bytes

/-!
# Recursive length prefix encoding

Stored records are written as items: a string of bytes or a list of items, each behind a header
that gives its length. Every value has one written form, so reading refuses headers longer than
needed, numbers with leading zeros, and input that goes on after the item.
-/

namespace Evm.Rlp

/-- What is wrong with an encoded item. -/
inductive Error where
  | overflow
  | leadingZero
  | inputTooShort
  | nonCanonicalSingleByte
  | nonCanonicalSize
  | unexpectedLength
  | unexpectedString
  | unexpectedList
  | listLengthMismatch (expected got : Nat)
  deriving DecidableEq, Repr

/-- The name of the error in reports. -/
def Error.name : Error → String
  | overflow => "Overflow"
  | leadingZero => "LeadingZero"
  | inputTooShort => "InputTooShort"
  | nonCanonicalSingleByte => "NonCanonicalSingleByte"
  | nonCanonicalSize => "NonCanonicalSize"
  | unexpectedLength => "UnexpectedLength"
  | unexpectedString => "UnexpectedString"
  | unexpectedList => "UnexpectedList"
  | listLengthMismatch _ _ => "ListLengthMismatch"

/-- What the error says. -/
def Error.message : Error → String
  | overflow => "overflow"
  | leadingZero => "leading zero"
  | inputTooShort => "input too short"
  | nonCanonicalSingleByte => "non-canonical single byte"
  | nonCanonicalSize => "non-canonical size"
  | unexpectedLength => "unexpected length"
  | unexpectedString => "unexpected string"
  | unexpectedList => "unexpected list"
  | listLengthMismatch expected got =>
    s!"unexpected list length (got {got}, expected {expected})"

/-- The header of an item: whether it is a list, and the length of what follows. -/
structure Header where
  isList : Bool
  length : Nat
  deriving DecidableEq, Repr

/-! ## Writing -/

/-- The big-endian bytes of a number, none of them in front being zero. -/
def digits (n : Nat) : List UInt8 :=
  if n = 0 then [] else digits (n / 256) ++ [UInt8.ofNat (n % 256)]
termination_by n
decreasing_by omega

/-- The header of a string or list of the given length. -/
def Header.encode (h : Header) : List UInt8 :=
  let short := if h.isList then 0xc0 else 0x80
  if h.length < 56 then [UInt8.ofNat (short + h.length)]
  else
    let len := digits h.length
    UInt8.ofNat (short + 55 + len.length) :: len

/-- A string of bytes, one byte below 128 standing for itself. -/
def encodeString (b : List UInt8) : List UInt8 :=
  match b with
  | [x] => if x < 0x80 then [x] else Header.encode ⟨false, 1⟩ ++ [x]
  | _ => Header.encode ⟨false, b.length⟩ ++ b

/-- A number, as the string of its bytes. -/
def encodeNat (n : Nat) : List UInt8 := encodeString (digits n)

/-- A word taken as a string of 32 bytes. -/
def encodeHash (h : Hash) : List UInt8 := encodeString (Bytes.ofWord h).toList

/-- A list of encoded items. -/
def encodeList (items : List (List UInt8)) : List UInt8 :=
  Header.encode ⟨true, items.flatten.length⟩ ++ items.flatten

/-! ## Reading -/

/-- A reader takes an item from the front of the input and leaves the rest. -/
abbrev Reader := StateT (List UInt8) (Except Error)

/-- The number that some bytes spell, big-endian. -/
def ofDigits (b : List UInt8) : Nat := b.foldl (fun n x => n * 256 + x.toNat) 0

/-- The number spelled by at most `width` bytes without leading zeros. -/
def number (width : Nat) (b : List UInt8) : Except Error Nat :=
  if width < b.length then .error .overflow
  else if b.head? = some 0 then .error .leadingZero
  else .ok (ofDigits b)

/-- Takes the next `count` bytes. -/
def take (count : Nat) : Reader (List UInt8) := fun input =>
  if input.length < count then .error .inputTooShort
  else .ok (input.take count, input.drop count)

/-- Reads the length of a long item from `size` bytes. -/
def longLength (size : Nat) : Reader Nat := do
  let n ← number 8 (← take size)
  if n < 56 then throw .nonCanonicalSize else return n

/-- Reads a header without checking that the payload is there. A byte below 128 is its own payload
and stays in the input. -/
def rawHeader : Reader Header
  | [] => .error .inputTooShort
  | b :: rest =>
    let n := b.toNat
    if n < 0x80 then .ok (⟨false, 1⟩, b :: rest)
    else if n < 0xb8 then
      if n = 0x81 then
        match rest with
        | [] => .error .inputTooShort
        | x :: _ => if x < 0x80 then .error .nonCanonicalSingleByte else .ok (⟨false, 1⟩, rest)
      else .ok (⟨false, n - 0x80⟩, rest)
    else if n < 0xc0 then (Header.mk false <$> longLength (n - 0xb7)).run rest
    else if n < 0xf8 then .ok (⟨true, n - 0xc0⟩, rest)
    else (Header.mk true <$> longLength (n - 0xf7)).run rest

/-- Reads a header whose payload is there. -/
def header : Reader Header := do
  let h ← rawHeader
  if (← get).length < h.length then throw .inputTooShort else return h

/-- Reads a string of bytes. -/
def string : Reader (List UInt8) := do
  let h ← header
  if h.isList then throw .unexpectedList else take h.length

/-- Reads a 64-bit number. -/
def nat64 : Reader UInt64 := do
  let n ← number 8 (← string)
  return UInt64.ofNat n

/-- Reads a word. A leading zero is reported before a length of more than 32 bytes. -/
def word : Reader Word := do
  let b ← string
  if b.head? = some 0 then throw .leadingZero
  else if 32 < b.length then throw .overflow
  else return BitVec.ofNat 256 (ofDigits b)

/-- Reads a string of 32 bytes as a word. -/
def hash : Reader Hash := do
  let b ← string
  if b.length = 32 then return BitVec.ofNat 256 (ofDigits b) else throw .unexpectedLength

/-- Reads a list with the items that `items` reads, which must use up the announced length. -/
def list {α : Type} (items : Reader α) : Reader α := do
  let h ← header
  if h.isList then
    let before := (← get).length
    let a ← items
    let got := before - (← get).length
    if got = h.length then return a else throw (.listLengthMismatch h.length got)
  else throw .unexpectedString

/-- Reads one item that is the whole input. -/
def exact {α : Type} (item : Reader α) (input : List UInt8) : Except Error α := do
  let (a, rest) ← item.run input
  if rest.isEmpty then return a else throw .unexpectedLength

end Evm.Rlp
