import Evm.Features
import Evm.Precompile.Blake2
import Evm.Precompile.Bn254
import Evm.Precompile.EcRecover
import Evm.Precompile.ModExp
import Evm.Precompile.PointEvaluation

/-!
# Precompiled contracts

Contracts at low addresses that are part of the machine. Which of them are there, and what some of
them cost, depends on the active proposals.
-/

namespace Evm

/-- A precompiled contract. -/
inductive Precompile where
  | ecRecover
  | sha256
  | ripemd160
  | identity
  | modExp
  | bnAdd
  | bnMul
  | bnPairing
  | blake2f
  | pointEvaluation
  deriving DecidableEq, Repr

namespace Precompile

/-- All precompiled contracts by address. -/
def all : List Precompile :=
  [ecRecover, sha256, ripemd160, identity, modExp, bnAdd, bnMul, bnPairing, blake2f,
    pointEvaluation]

/-- Where the contract is. -/
def address : Precompile → Address
  | ecRecover => 1
  | sha256 => 2
  | ripemd160 => 3
  | identity => 4
  | modExp => 5
  | bnAdd => 6
  | bnMul => 7
  | bnPairing => 8
  | blake2f => 9
  | pointEvaluation => 10

/-- The proposal that introduced the contract, none for those there from the start. -/
def introducedBy? : Precompile → Option Eip
  | ecRecover | sha256 | ripemd160 | identity => none
  | modExp => some .eip198
  | bnAdd | bnMul => some .eip196
  | bnPairing => some .eip197
  | blake2f => some .eip152
  | pointEvaluation => some .eip4844

/-- Whether the contract is there under a feature set. -/
def isActive (features : Features) (p : Precompile) : Bool := p.introducedBy?.all features.has

/-- The contracts that are there under a feature set. -/
def active (features : Features) : List Precompile := all.filter (isActive features)

/-- The contract at an address. -/
def at? (features : Features) (a : Address) : Option Precompile :=
  (active features).find? (·.address == a)

/-! ## Running -/

/-- Runs the contract on an input with some gas, with the cryptography of a library. -/
def runWith (lib : Library) (features : Features) (p : Precompile) (input : Bytes)
    (gasLimit : Nat) : Except Error Output :=
  let cheap := features.has .eip1108
  match p with
  | ecRecover => EcRecover.run lib.keccak lib.signatures input gasLimit
  | sha256 => linear 60 12 lib.sha256 input gasLimit
  | ripemd160 => linear 600 120 (fun b => Array.replicate 12 0 ++ lib.ripemd160 b) input gasLimit
  | identity => linear 15 3 id input gasLimit
  | modExp =>
    if features.has .eip2565 then ModExp.runSecond lib.power input gasLimit
    else ModExp.runFirst lib.power input gasLimit
  | bnAdd => Bn254.add lib.curve (if cheap then 150 else 500) input gasLimit
  | bnMul => Bn254.mul lib.curve (if cheap then 6000 else 40000) input gasLimit
  | bnPairing =>
    if cheap then Bn254.pairing lib.curve 34000 45000 input gasLimit
    else Bn254.pairing lib.curve 80000 100000 input gasLimit
  | blake2f => Blake2.run input gasLimit
  | pointEvaluation => PointEvaluation.run lib.sha256 lib.proves input gasLimit

/-- Runs the contract on an input with some gas. -/
def run (features : Features) (p : Precompile) (input : Bytes) (gasLimit : Nat) :
    Except Error Output :=
  runWith .standard features p input gasLimit

/-- Runs the contract at an address, if there is one. -/
def dispatch (lib : Library) (features : Features) (a : Address) (input : Bytes) (gasLimit : Nat) :
    Option (Except Error Output) :=
  (at? features a).map fun p => p.runWith lib features input gasLimit

end Precompile

end Evm
