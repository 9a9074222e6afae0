import Evm.Bytes

/-!
# The compression function of BLAKE2b

`compress` mixes a message block of 16 words into eight words of state in any number of rounds.
-/

namespace Evm.Crypto.Blake2b

/-- The order in which round `r` reads the message words, for `r` modulo 10. -/
def sigma : Array (Array Nat) := #[
  #[0, 1, 2, 3, 4, 5, 6, 7, 8, 9, 10, 11, 12, 13, 14, 15],
  #[14, 10, 4, 8, 9, 15, 13, 6, 1, 12, 0, 2, 11, 7, 5, 3],
  #[11, 8, 12, 0, 5, 2, 15, 13, 10, 14, 3, 6, 7, 1, 9, 4],
  #[7, 9, 3, 1, 13, 12, 11, 14, 2, 6, 5, 10, 4, 0, 15, 8],
  #[9, 0, 5, 7, 2, 4, 10, 15, 14, 1, 11, 12, 6, 8, 3, 13],
  #[2, 12, 6, 10, 0, 11, 8, 3, 4, 13, 7, 5, 15, 14, 1, 9],
  #[12, 5, 1, 15, 14, 13, 4, 10, 0, 7, 6, 3, 9, 2, 8, 11],
  #[13, 11, 7, 14, 12, 1, 3, 9, 5, 0, 15, 4, 8, 6, 2, 10],
  #[6, 15, 14, 9, 11, 3, 0, 8, 12, 2, 13, 7, 1, 4, 10, 5],
  #[10, 2, 8, 4, 7, 6, 1, 5, 15, 11, 9, 14, 3, 12, 13, 0]]

/-- The initialization vector. -/
def iv : Array UInt64 := #[
  0x6a09e667f3bcc908, 0xbb67ae8584caa73b, 0x3c6ef372fe94f82b, 0xa54ff53a5f1d36f1,
  0x510e527fade682d1, 0x9b05688c2b3e6c1f, 0x1f83d9abfb41bd6b, 0x5be0cd19137e2179]

/-- Four words that are mixed together. -/
structure Column where
  (a b c d : UInt64)

/-- The 16 working words, as four columns. -/
structure Matrix where
  (c0 c1 c2 c3 : Column)

/-- The word `w` rotated right by `n` bits, for `0 < n < 64`. -/
@[inline] def rotr (w n : UInt64) : UInt64 := (w >>> n) ||| (w <<< (64 - n))

/-- Mixes two message words into a column. -/
@[inline] def mix (v : Column) (x y : UInt64) : Column :=
  let a := v.a + v.b + x
  let d := rotr (v.d ^^^ a) 32
  let c := v.c + d
  let b := rotr (v.b ^^^ c) 24
  let a := a + b + y
  let d := rotr (d ^^^ a) 16
  let c := c + d
  ⟨a, rotr (b ^^^ c) 63, c, d⟩

/-- One round: the columns are mixed, then the diagonals. -/
def round (m : Array UInt64) (v : Matrix) (order : Array Nat) : Matrix :=
  let word (i : Nat) : UInt64 := m.getD (order.getD i 0) 0
  let c0 := mix v.c0 (word 0) (word 1)
  let c1 := mix v.c1 (word 2) (word 3)
  let c2 := mix v.c2 (word 4) (word 5)
  let c3 := mix v.c3 (word 6) (word 7)
  let d0 := mix ⟨c0.a, c1.b, c2.c, c3.d⟩ (word 8) (word 9)
  let d1 := mix ⟨c1.a, c2.b, c3.c, c0.d⟩ (word 10) (word 11)
  let d2 := mix ⟨c2.a, c3.b, c0.c, c1.d⟩ (word 12) (word 13)
  let d3 := mix ⟨c3.a, c0.b, c1.c, c2.d⟩ (word 14) (word 15)
  ⟨⟨d0.a, d3.b, d2.c, d1.d⟩, ⟨d1.a, d0.b, d3.c, d2.d⟩,
    ⟨d2.a, d1.b, d0.c, d3.d⟩, ⟨d3.a, d2.b, d1.c, d0.d⟩⟩

/-- Rounds `0` to `rounds - 1`. -/
def mixRounds (m : Array UInt64) (rounds : Nat) (v : Matrix) : Matrix :=
  rounds.fold (fun i _ v => round m v (sigma.getD (i % 10) #[])) v

/-- The compression function: state `h`, message `m`, offset counters `t0` and `t1`, and whether
this is the last block. -/
def compress (rounds : Nat) (h m : Array UInt64) (t0 t1 : UInt64) (last : Bool) :
    Array UInt64 :=
  let s (i : Nat) : UInt64 := h.getD i 0
  let k (i : Nat) : UInt64 := iv.getD i 0
  let start : Matrix := ⟨
    ⟨s 0, s 4, k 0, k 4 ^^^ t0⟩, ⟨s 1, s 5, k 1, k 5 ^^^ t1⟩,
    ⟨s 2, s 6, k 2, if last then ~~~(k 6) else k 6⟩, ⟨s 3, s 7, k 3, k 7⟩⟩
  let v := mixRounds m rounds start
  #[s 0 ^^^ v.c0.a ^^^ v.c0.c, s 1 ^^^ v.c1.a ^^^ v.c1.c,
    s 2 ^^^ v.c2.a ^^^ v.c2.c, s 3 ^^^ v.c3.a ^^^ v.c3.c,
    s 4 ^^^ v.c0.b ^^^ v.c0.d, s 5 ^^^ v.c1.b ^^^ v.c1.d,
    s 6 ^^^ v.c2.b ^^^ v.c2.d, s 7 ^^^ v.c3.b ^^^ v.c3.d]

end Evm.Crypto.Blake2b
