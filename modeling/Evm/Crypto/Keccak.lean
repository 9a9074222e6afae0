import Evm.Bytes

/-!
# Keccak-256

The hash of account code, addresses and stored keys: a sponge over 25 lanes of 64 bits with a rate
of 136 bytes and padding of one bit at either end of the last block.
-/

namespace Evm.Crypto.Keccak

/-- The 25 lanes, lane `x + 5 * y` at row `y` and column `x`. -/
structure Lanes where
  (a0 a1 a2 a3 a4 a5 a6 a7 a8 a9 a10 a11 a12 a13 a14 a15 a16 a17 a18 a19
    a20 a21 a22 a23 a24 : UInt64)

/-- The word `w` rotated left by `n` bits, for `0 < n < 64`. -/
@[inline] def rotl (w n : UInt64) : UInt64 := (w <<< n) ||| (w >>> (64 - n))

/-- The constants added to the first lane, one per round. -/
def roundConstants : List UInt64 := [
  0x0000000000000001, 0x0000000000008082, 0x800000000000808a, 0x8000000080008000,
  0x000000000000808b, 0x0000000080000001, 0x8000000080008081, 0x8000000000008009,
  0x000000000000008a, 0x0000000000000088, 0x0000000080008009, 0x000000008000000a,
  0x000000008000808b, 0x800000000000008b, 0x8000000000008089, 0x8000000000008003,
  0x8000000000008002, 0x8000000000000080, 0x000000000000800a, 0x800000008000000a,
  0x8000000080008081, 0x8000000000008080, 0x0000000080000001, 0x8000000080008008]

/-- One round: parities of the columns, rotation and transposition of the lanes, the non-linear step
along the rows, and the round constant. -/
def round (s : Lanes) (constant : UInt64) : Lanes :=
  let c0 := s.a0 ^^^ s.a5 ^^^ s.a10 ^^^ s.a15 ^^^ s.a20
  let c1 := s.a1 ^^^ s.a6 ^^^ s.a11 ^^^ s.a16 ^^^ s.a21
  let c2 := s.a2 ^^^ s.a7 ^^^ s.a12 ^^^ s.a17 ^^^ s.a22
  let c3 := s.a3 ^^^ s.a8 ^^^ s.a13 ^^^ s.a18 ^^^ s.a23
  let c4 := s.a4 ^^^ s.a9 ^^^ s.a14 ^^^ s.a19 ^^^ s.a24
  let d0 := c4 ^^^ rotl c1 1
  let d1 := c0 ^^^ rotl c2 1
  let d2 := c1 ^^^ rotl c3 1
  let d3 := c2 ^^^ rotl c4 1
  let d4 := c3 ^^^ rotl c0 1
  let b0 := s.a0 ^^^ d0
  let b1 := rotl (s.a6 ^^^ d1) 44
  let b2 := rotl (s.a12 ^^^ d2) 43
  let b3 := rotl (s.a18 ^^^ d3) 21
  let b4 := rotl (s.a24 ^^^ d4) 14
  let b5 := rotl (s.a3 ^^^ d3) 28
  let b6 := rotl (s.a9 ^^^ d4) 20
  let b7 := rotl (s.a10 ^^^ d0) 3
  let b8 := rotl (s.a16 ^^^ d1) 45
  let b9 := rotl (s.a22 ^^^ d2) 61
  let b10 := rotl (s.a1 ^^^ d1) 1
  let b11 := rotl (s.a7 ^^^ d2) 6
  let b12 := rotl (s.a13 ^^^ d3) 25
  let b13 := rotl (s.a19 ^^^ d4) 8
  let b14 := rotl (s.a20 ^^^ d0) 18
  let b15 := rotl (s.a4 ^^^ d4) 27
  let b16 := rotl (s.a5 ^^^ d0) 36
  let b17 := rotl (s.a11 ^^^ d1) 10
  let b18 := rotl (s.a17 ^^^ d2) 15
  let b19 := rotl (s.a23 ^^^ d3) 56
  let b20 := rotl (s.a2 ^^^ d2) 62
  let b21 := rotl (s.a8 ^^^ d3) 55
  let b22 := rotl (s.a14 ^^^ d4) 39
  let b23 := rotl (s.a15 ^^^ d0) 41
  let b24 := rotl (s.a21 ^^^ d1) 2
  { a0 := b0 ^^^ (~~~b1 &&& b2) ^^^ constant
    a1 := b1 ^^^ (~~~b2 &&& b3)
    a2 := b2 ^^^ (~~~b3 &&& b4)
    a3 := b3 ^^^ (~~~b4 &&& b0)
    a4 := b4 ^^^ (~~~b0 &&& b1)
    a5 := b5 ^^^ (~~~b6 &&& b7)
    a6 := b6 ^^^ (~~~b7 &&& b8)
    a7 := b7 ^^^ (~~~b8 &&& b9)
    a8 := b8 ^^^ (~~~b9 &&& b5)
    a9 := b9 ^^^ (~~~b5 &&& b6)
    a10 := b10 ^^^ (~~~b11 &&& b12)
    a11 := b11 ^^^ (~~~b12 &&& b13)
    a12 := b12 ^^^ (~~~b13 &&& b14)
    a13 := b13 ^^^ (~~~b14 &&& b10)
    a14 := b14 ^^^ (~~~b10 &&& b11)
    a15 := b15 ^^^ (~~~b16 &&& b17)
    a16 := b16 ^^^ (~~~b17 &&& b18)
    a17 := b17 ^^^ (~~~b18 &&& b19)
    a18 := b18 ^^^ (~~~b19 &&& b15)
    a19 := b19 ^^^ (~~~b15 &&& b16)
    a20 := b20 ^^^ (~~~b21 &&& b22)
    a21 := b21 ^^^ (~~~b22 &&& b23)
    a22 := b22 ^^^ (~~~b23 &&& b24)
    a23 := b23 ^^^ (~~~b24 &&& b20)
    a24 := b24 ^^^ (~~~b20 &&& b21) }

/-- The 24 rounds. -/
def permute (s : Lanes) : Lanes := roundConstants.foldl round s

/-- Lane `i` of the block of `b` that starts at `start`, its first byte the least significant. -/
def lane (b : Bytes) (start i : Nat) : UInt64 :=
  let byte (k : Nat) : UInt64 := (b.getD (start + 8 * i + k) 0).toUInt64
  byte 0 ||| byte 1 <<< 8 ||| byte 2 <<< 16 ||| byte 3 <<< 24 |||
    byte 4 <<< 32 ||| byte 5 <<< 40 ||| byte 6 <<< 48 ||| byte 7 <<< 56

/-- Number of bytes taken in between two permutations. -/
def rate : Nat := 136

/-- Adds the block of `b` that starts at `start` and permutes. -/
def absorb (b : Bytes) (s : Lanes) (start : Nat) : Lanes :=
  permute { s with
    a0 := s.a0 ^^^ lane b start 0
    a1 := s.a1 ^^^ lane b start 1
    a2 := s.a2 ^^^ lane b start 2
    a3 := s.a3 ^^^ lane b start 3
    a4 := s.a4 ^^^ lane b start 4
    a5 := s.a5 ^^^ lane b start 5
    a6 := s.a6 ^^^ lane b start 6
    a7 := s.a7 ^^^ lane b start 7
    a8 := s.a8 ^^^ lane b start 8
    a9 := s.a9 ^^^ lane b start 9
    a10 := s.a10 ^^^ lane b start 10
    a11 := s.a11 ^^^ lane b start 11
    a12 := s.a12 ^^^ lane b start 12
    a13 := s.a13 ^^^ lane b start 13
    a14 := s.a14 ^^^ lane b start 14
    a15 := s.a15 ^^^ lane b start 15
    a16 := s.a16 ^^^ lane b start 16 }

/-- The string `b` filled up to a whole number of blocks. -/
def pad (b : Bytes) : Bytes :=
  let room := rate - b.size % rate
  if room = 1 then b.push 0x81
  else ((b.push 0x01) ++ Array.replicate (room - 2) 0).push 0x80

/-- All lanes zero. -/
def initial : Lanes :=
  ⟨0, 0, 0, 0, 0, 0, 0, 0, 0, 0, 0, 0, 0, 0, 0, 0, 0, 0, 0, 0, 0, 0, 0, 0, 0⟩

/-- A lane as its eight bytes read big-endian. -/
def swapBytes (w : UInt64) : Nat :=
  (List.range 8).foldl (fun n k => n * 256 + ((w >>> (8 * k.toUInt64)) &&& 0xff).toNat) 0

/-- The Keccak-256 hash of `b`. -/
def hash (b : Bytes) : Hash :=
  let padded := pad b
  let s := (List.range (padded.size / rate)).foldl
    (fun s k => absorb padded s (rate * k)) initial
  let join (n : Nat) (w : UInt64) : Nat := n <<< 64 + swapBytes w
  BitVec.ofNat 256 (join (join (join (swapBytes s.a0) s.a1) s.a2) s.a3)

end Evm.Crypto.Keccak
