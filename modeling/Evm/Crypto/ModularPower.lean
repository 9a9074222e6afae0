import Evm.Bytes

/-!
# Modular powers

Powers of large numbers whose exponent is a byte string, taken byte by byte.
-/

namespace Evm.Crypto.ModularPower

/-- The power `x ^ 256` modulo `m`, by eight squarings. -/
def pow256 (x m : Nat) : Nat := Nat.repeat (fun x => x * x % m) 8 x

/-- The power of `b` to a big-endian exponent modulo `m`, zero for `m = 0`. -/
def power (b : Nat) (e : Bytes) (m : Nat) : Nat :=
  if m = 0 then 0
  else e.foldl (fun acc x => pow256 acc m * Word.powMod b x.toNat m % m) (1 % m)

/-- The power of big-endian numbers, as long as the modulus. -/
def powerBytes (base exponent modulus : Bytes) : Bytes :=
  Bytes.ofNat modulus.size (power base.toNat exponent modulus.toNat)

end Evm.Crypto.ModularPower
