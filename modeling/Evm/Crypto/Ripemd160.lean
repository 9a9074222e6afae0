import Evm.Bytes

/-!
# RIPEMD-160

Each block of 64 bytes runs through two lines of 80 steps, which read the block's words in
different orders, and the two results are added crosswise to the five words of state.
-/

namespace Evm.Crypto.Ripemd160

/-- The five words of state. -/
structure Words where
  (a b c d e : UInt32)

/-- The word `w` rotated left by `n` bits, for `0 < n < 32`. -/
@[inline] def rotl (w n : UInt32) : UInt32 := (w <<< n) ||| (w >>> (32 - n))

/-- One line of steps: which word each step reads, how far it rotates, and per group of 16 steps the
constant it adds and the number of the function it applies. -/
structure Line where
  order : Array Nat
  rotation : Array UInt32
  constants : Array UInt32
  functions : Array Nat

/-- The first line. -/
def left : Line where
  order := #[
    0, 1, 2, 3, 4, 5, 6, 7, 8, 9, 10, 11, 12, 13, 14, 15,
    7, 4, 13, 1, 10, 6, 15, 3, 12, 0, 9, 5, 2, 14, 11, 8,
    3, 10, 14, 4, 9, 15, 8, 1, 2, 7, 0, 6, 13, 11, 5, 12,
    1, 9, 11, 10, 0, 8, 12, 4, 13, 3, 7, 15, 14, 5, 6, 2,
    4, 0, 5, 9, 7, 12, 2, 10, 14, 1, 3, 8, 11, 6, 15, 13]
  rotation := #[
    11, 14, 15, 12, 5, 8, 7, 9, 11, 13, 14, 15, 6, 7, 9, 8,
    7, 6, 8, 13, 11, 9, 7, 15, 7, 12, 15, 9, 11, 7, 13, 12,
    11, 13, 6, 7, 14, 9, 13, 15, 14, 8, 13, 6, 5, 12, 7, 5,
    11, 12, 14, 15, 14, 15, 9, 8, 9, 14, 5, 6, 8, 6, 5, 12,
    9, 15, 5, 11, 6, 8, 13, 12, 5, 12, 13, 14, 11, 8, 5, 6]
  constants := #[0, 0x5a827999, 0x6ed9eba1, 0x8f1bbcdc, 0xa953fd4e]
  functions := #[0, 1, 2, 3, 4]

/-- The second line. -/
def right : Line where
  order := #[
    5, 14, 7, 0, 9, 2, 11, 4, 13, 6, 15, 8, 1, 10, 3, 12,
    6, 11, 3, 7, 0, 13, 5, 10, 14, 15, 8, 12, 4, 9, 1, 2,
    15, 5, 1, 3, 7, 14, 6, 9, 11, 8, 12, 2, 10, 0, 4, 13,
    8, 6, 4, 1, 3, 11, 15, 0, 5, 12, 2, 13, 9, 7, 10, 14,
    12, 15, 10, 4, 1, 5, 8, 7, 6, 2, 13, 14, 0, 3, 9, 11]
  rotation := #[
    8, 9, 9, 11, 13, 15, 15, 5, 7, 7, 8, 11, 14, 14, 12, 6,
    9, 13, 15, 7, 12, 8, 9, 11, 7, 7, 12, 7, 6, 15, 13, 11,
    9, 7, 15, 11, 8, 6, 6, 14, 12, 13, 5, 14, 13, 13, 7, 5,
    15, 5, 8, 11, 14, 14, 6, 14, 6, 9, 12, 9, 12, 5, 15, 8,
    8, 5, 12, 9, 12, 5, 14, 6, 8, 13, 6, 5, 15, 13, 11, 11]
  constants := #[0x50a28be6, 0x5c4dd124, 0x6d703ef3, 0x7a6d76e9, 0]
  functions := #[4, 3, 2, 1, 0]

/-- The five bitwise functions. -/
def mix (n : Nat) (x y z : UInt32) : UInt32 :=
  match n with
  | 0 => x ^^^ y ^^^ z
  | 1 => (x &&& y) ||| (~~~x &&& z)
  | 2 => (x ||| ~~~y) ^^^ z
  | 3 => (x &&& z) ||| (y &&& ~~~z)
  | _ => x ^^^ (y ||| ~~~z)

/-- Step `i` of a line. -/
def step (l : Line) (block : Array UInt32) (s : Words) (i : Nat) : Words :=
  let group := i / 16
  let t := s.a + mix (l.functions.getD group 0) s.b s.c s.d +
    block.getD (l.order.getD i 0) 0 + l.constants.getD group 0
  ⟨s.e, rotl t (l.rotation.getD i 1) + s.e, s.b, rotl s.c 10, s.d⟩

/-- The little-endian word of `b` at byte `start`. -/
def word (b : Bytes) (start : Nat) : UInt32 :=
  (List.range 4).foldr (fun k w => w <<< 8 ||| (b.getD (start + k) 0).toUInt32) 0

/-- Mixes the block of `b` that starts at `start` into the state. -/
def compress (b : Bytes) (s : Words) (start : Nat) : Words :=
  let block := (Array.range 16).map fun i => word b (start + 4 * i)
  let l := (List.range 80).foldl (step left block) s
  let r := (List.range 80).foldl (step right block) s
  ⟨s.b + l.c + r.d, s.c + l.d + r.e, s.d + l.e + r.a, s.e + l.a + r.b, s.a + l.b + r.c⟩

/-- The bytes of a word, the least significant first. -/
def wordBytes (w : UInt32) : Bytes := (Bytes.ofNat 4 w.toNat).reverse

/-- The string `b`, a one bit, zero bits up to eight bytes short of a block, and the bit length. -/
def pad (b : Bytes) : Bytes :=
  (b.push 0x80) ++ Array.replicate ((119 - b.size % 64) % 64) 0 ++
    (Bytes.ofNat 8 (8 * b.size)).reverse

/-- The state before the first block. -/
def initial : Words := ⟨0x67452301, 0xefcdab89, 0x98badcfe, 0x10325476, 0xc3d2e1f0⟩

/-- The RIPEMD-160 hash of `b`. -/
def hash (b : Bytes) : Bytes :=
  let padded := pad b
  let s := (List.range (padded.size / 64)).foldl (fun s k => compress padded s (64 * k)) initial
  [s.a, s.b, s.c, s.d, s.e].foldl (fun out w => out ++ wordBytes w) #[]

end Evm.Crypto.Ripemd160
