import Evm.Bytes

/-!
# SHA-256

The message is cut into blocks of 64 bytes; each block is expanded to 64 words and mixed into eight
words of state in 64 rounds.
-/

namespace Evm.Crypto.Sha256

/-- The eight working words. -/
structure Words where
  (a b c d e f g h : UInt32)

/-- The word `w` rotated right by `n` bits, for `0 < n < 32`. -/
@[inline] def rotr (w n : UInt32) : UInt32 := (w >>> n) ||| (w <<< (32 - n))

/-- The constants added in the rounds. -/
def roundConstants : Array UInt32 := #[
  0x428a2f98, 0x71374491, 0xb5c0fbcf, 0xe9b5dba5, 0x3956c25b, 0x59f111f1, 0x923f82a4, 0xab1c5ed5,
  0xd807aa98, 0x12835b01, 0x243185be, 0x550c7dc3, 0x72be5d74, 0x80deb1fe, 0x9bdc06a7, 0xc19bf174,
  0xe49b69c1, 0xefbe4786, 0x0fc19dc6, 0x240ca1cc, 0x2de92c6f, 0x4a7484aa, 0x5cb0a9dc, 0x76f988da,
  0x983e5152, 0xa831c66d, 0xb00327c8, 0xbf597fc7, 0xc6e00bf3, 0xd5a79147, 0x06ca6351, 0x14292967,
  0x27b70a85, 0x2e1b2138, 0x4d2c6dfc, 0x53380d13, 0x650a7354, 0x766a0abb, 0x81c2c92e, 0x92722c85,
  0xa2bfe8a1, 0xa81a664b, 0xc24b8b70, 0xc76c51a3, 0xd192e819, 0xd6990624, 0xf40e3585, 0x106aa070,
  0x19a4c116, 0x1e376c08, 0x2748774c, 0x34b0bcb5, 0x391c0cb3, 0x4ed8aa4a, 0x5b9cca4f, 0x682e6ff3,
  0x748f82ee, 0x78a5636f, 0x84c87814, 0x8cc70208, 0x90befffa, 0xa4506ceb, 0xbef9a3f7, 0xc67178f2]

/-- The state before the first block. -/
def initial : Words :=
  ⟨0x6a09e667, 0xbb67ae85, 0x3c6ef372, 0xa54ff53a, 0x510e527f, 0x9b05688c, 0x1f83d9ab, 0x5be0cd19⟩

/-- The big-endian word of `b` at byte `start`. -/
def word (b : Bytes) (start : Nat) : UInt32 :=
  (List.range 4).foldl (fun w k => w <<< 8 ||| (b.getD (start + k) 0).toUInt32) 0

/-- The 64 words of the block of `b` that starts at `start`. -/
def schedule (b : Bytes) (start : Nat) : Array UInt32 :=
  let first := (Array.range 16).map fun i => word b (start + 4 * i)
  (List.range 48).foldl (fun w k =>
    let i := k + 16
    let x := w.getD (i - 15) 0
    let y := w.getD (i - 2) 0
    let s0 := rotr x 7 ^^^ rotr x 18 ^^^ (x >>> 3)
    let s1 := rotr y 17 ^^^ rotr y 19 ^^^ (y >>> 10)
    w.push (w.getD (i - 16) 0 + s0 + w.getD (i - 7) 0 + s1)) first

/-- One round with the word `w` and the constant `k`. -/
def round (s : Words) (k w : UInt32) : Words :=
  let s1 := rotr s.e 6 ^^^ rotr s.e 11 ^^^ rotr s.e 25
  let choice := (s.e &&& s.f) ^^^ (~~~s.e &&& s.g)
  let t1 := s.h + s1 + choice + k + w
  let s0 := rotr s.a 2 ^^^ rotr s.a 13 ^^^ rotr s.a 22
  let majority := (s.a &&& s.b) ^^^ (s.a &&& s.c) ^^^ (s.b &&& s.c)
  ⟨t1 + s0 + majority, s.a, s.b, s.c, s.d + t1, s.e, s.f, s.g⟩

/-- Mixes the block of `b` that starts at `start` into the state. -/
def compress (b : Bytes) (s : Words) (start : Nat) : Words :=
  let w := schedule b start
  let r := (List.range 64).foldl
    (fun r i => round r (roundConstants.getD i 0) (w.getD i 0)) s
  ⟨s.a + r.a, s.b + r.b, s.c + r.c, s.d + r.d, s.e + r.e, s.f + r.f, s.g + r.g, s.h + r.h⟩

/-- The string `b`, a one bit, zero bits up to eight bytes short of a block, and the bit length. -/
def pad (b : Bytes) : Bytes :=
  (b.push 0x80) ++ Array.replicate ((119 - b.size % 64) % 64) 0 ++ Bytes.ofNat 8 (8 * b.size)

/-- The SHA-256 hash of `b`. -/
def hash (b : Bytes) : Bytes :=
  let padded := pad b
  let s := (List.range (padded.size / 64)).foldl (fun s k => compress padded s (64 * k)) initial
  [s.a, s.b, s.c, s.d, s.e, s.f, s.g, s.h].foldl (fun out w => out ++ Bytes.ofNat 4 w.toNat) #[]

end Evm.Crypto.Sha256
