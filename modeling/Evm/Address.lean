import Evm.Crypto.Keccak
import Evm.Rlp

/-!
# Addresses of new contracts

A contract's address follows from its creator, and either from the creator's nonce or from a salt
and the init code.
-/

namespace Evm.Address

/-- The last 20 bytes of a hash. -/
def ofHash (h : Hash) : Address := h.setWidth 160

/-- The address of a contract that `creator` creates at that nonce. -/
def created (creator : Address) (nonce : UInt64) : Address :=
  ofHash <| Crypto.Keccak.hash <| Array.mk <|
    Rlp.encodeList [Rlp.encodeString (Bytes.ofAddress creator).toList, Rlp.encodeNat nonce.toNat]

/-- The address of a contract that `creator` creates from init code with a salt. -/
def createdSalted (creator : Address) (salt : Word) (initCode : Bytes) : Address :=
  ofHash <| Crypto.Keccak.hash <|
    #[0xff] ++ Bytes.ofAddress creator ++ Bytes.ofWord salt ++
      Bytes.ofWord (Crypto.Keccak.hash initCode)

end Evm.Address
