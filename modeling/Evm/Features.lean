import Evm.Fork

/-!
# Improvement proposals and feature sets

Every rule that changed between forks is keyed by the proposal that changed it. A fork stands for a
set of proposals, and more of them can be switched on by number; two proposals that give the same
opcodes different meanings cannot be active together.
-/

namespace Evm

/-- A proposal that changes a rule. -/
inductive Eip where
  /-- Failing to pay for deployed code fails the creation. -/
  | eip2
  /-- The opcode `DELEGATECALL`. -/
  | eip7
  /-- Repriced state access; a call keeps a 64th of the gas back. -/
  | eip150
  /-- Repriced `EXP`. -/
  | eip160
  /-- Empty accounts are removed. -/
  | eip161
  /-- Limit on the size of deployed code. -/
  | eip170
  /-- The opcode `REVERT`. -/
  | eip140
  /-- Addition and multiplication on bn254. -/
  | eip196
  /-- Pairing check on bn254. -/
  | eip197
  /-- Modular exponentiation. -/
  | eip198
  /-- The opcodes `RETURNDATASIZE` and `RETURNDATACOPY`. -/
  | eip211
  /-- The opcode `STATICCALL`. -/
  | eip214
  /-- Shifts. -/
  | eip145
  /-- The opcode `CREATE2`. -/
  | eip1014
  /-- The opcode `EXTCODEHASH`. -/
  | eip1052
  /-- Net metering of `SSTORE`, in Constantinople alone. -/
  | eip1283
  /-- The compression function of BLAKE2b. -/
  | eip152
  /-- Repriced bn254. -/
  | eip1108
  /-- The opcode `CHAINID`. -/
  | eip1344
  /-- Repriced state access; `SELFBALANCE`. -/
  | eip1884
  /-- Net metering of `SSTORE`. -/
  | eip2200
  /-- Repriced modular exponentiation. -/
  | eip2565
  /-- A price for the first access to an account or slot. -/
  | eip2929
  /-- Access lists. -/
  | eip2930
  /-- The opcode `BASEFEE`. -/
  | eip3198
  /-- Smaller refunds. -/
  | eip3529
  /-- No deployed code starts with the byte 0xEF. -/
  | eip3541
  /-- The opcode `DIFFICULTY` reads the randomness of the beacon. -/
  | eip4399
  /-- The beneficiary is warm from the start. -/
  | eip3651
  /-- The opcode `PUSH0`. -/
  | eip3855
  /-- Limit on and price of init code. -/
  | eip3860
  /-- Transient storage. -/
  | eip1153
  /-- The opcode `BLOBHASH` and the point evaluation. -/
  | eip4844
  /-- The opcode `MCOPY`. -/
  | eip5656
  /-- The opcode `SELFDESTRUCT` deletes only in the creating transaction. -/
  | eip6780
  /-- The opcode `BLOBBASEFEE`. -/
  | eip7516
  /-- Subroutines, in no fork. -/
  | eip2315
  deriving DecidableEq, Repr

namespace Eip

/-- All proposals, in the order of activation. -/
def all : List Eip :=
  [eip2, eip7, eip150, eip160, eip161, eip170, eip140, eip196, eip197, eip198, eip211, eip214,
    eip145, eip1014, eip1052, eip1283, eip152, eip1108, eip1344, eip1884, eip2200, eip2565,
    eip2929, eip2930, eip3198, eip3529, eip3541, eip4399, eip3651, eip3855, eip3860, eip1153,
    eip4844, eip5656, eip6780, eip7516, eip2315]

/-- The number of the proposal. -/
def number : Eip → Nat
  | eip2 => 2
  | eip7 => 7
  | eip150 => 150
  | eip160 => 160
  | eip161 => 161
  | eip170 => 170
  | eip140 => 140
  | eip196 => 196
  | eip197 => 197
  | eip198 => 198
  | eip211 => 211
  | eip214 => 214
  | eip145 => 145
  | eip1014 => 1014
  | eip1052 => 1052
  | eip1283 => 1283
  | eip152 => 152
  | eip1108 => 1108
  | eip1344 => 1344
  | eip1884 => 1884
  | eip2200 => 2200
  | eip2565 => 2565
  | eip2929 => 2929
  | eip2930 => 2930
  | eip3198 => 3198
  | eip3529 => 3529
  | eip3541 => 3541
  | eip4399 => 4399
  | eip3651 => 3651
  | eip3855 => 3855
  | eip3860 => 3860
  | eip1153 => 1153
  | eip4844 => 4844
  | eip5656 => 5656
  | eip6780 => 6780
  | eip7516 => 7516
  | eip2315 => 2315

/-- The bit that stands for the proposal in a feature set. -/
def bit : Eip → Nat
  | eip2 => 0
  | eip7 => 1
  | eip150 => 2
  | eip160 => 3
  | eip161 => 4
  | eip170 => 5
  | eip140 => 6
  | eip196 => 7
  | eip197 => 8
  | eip198 => 9
  | eip211 => 10
  | eip214 => 11
  | eip145 => 12
  | eip1014 => 13
  | eip1052 => 14
  | eip1283 => 15
  | eip152 => 16
  | eip1108 => 17
  | eip1344 => 18
  | eip1884 => 19
  | eip2200 => 20
  | eip2565 => 21
  | eip2929 => 22
  | eip2930 => 23
  | eip3198 => 24
  | eip3529 => 25
  | eip3541 => 26
  | eip4399 => 30
  | eip3651 => 27
  | eip3855 => 28
  | eip3860 => 29
  | eip1153 => 31
  | eip4844 => 32
  | eip5656 => 33
  | eip6780 => 34
  | eip7516 => 35
  | eip2315 => 36

/-- The fork that activates the proposal, if one does. -/
def activation? : Eip → Option Fork
  | eip2 | eip7 => some .homestead
  | eip150 => some .tangerine
  | eip160 | eip161 | eip170 => some .spuriousDragon
  | eip140 | eip196 | eip197 | eip198 | eip211 | eip214 => some .byzantium
  | eip145 | eip1014 | eip1052 | eip1283 => some .constantinople
  | eip152 | eip1108 | eip1344 | eip1884 | eip2200 => some .istanbul
  | eip2565 | eip2929 | eip2930 => some .berlin
  | eip3198 | eip3529 | eip3541 => some .london
  | eip4399 => some .merge
  | eip3651 | eip3855 | eip3860 => some .shanghai
  | eip1153 | eip4844 | eip5656 | eip6780 | eip7516 => some .cancun
  | eip2315 => none

/-- Whether the proposal is among the rules of `fork`. Net metering in its first form was taken out
again by the fork after the one that brought it. -/
def activeIn (eip : Eip) (fork : Fork) : Bool :=
  match eip with
  | eip1283 => fork == .constantinople
  | _ => eip.activation?.any fork.includes

/-- The proposal of that number. -/
def ofNumber? (n : Nat) : Option Eip := all.find? (·.number == n)

end Eip

/-- A set of active proposals, one bit for each. -/
structure Features where
  bits : Nat
  deriving DecidableEq, Repr

namespace Features

/-- No proposals. -/
def empty : Features := ⟨0⟩

/-- Whether the proposal is active. -/
def has (f : Features) (eip : Eip) : Bool := f.bits.testBit eip.bit

/-- The set with one more proposal. -/
def insert (f : Features) (eip : Eip) : Features := ⟨f.bits ||| 1 <<< eip.bit⟩

/-- The set of some proposals. -/
def ofList (eips : List Eip) : Features := eips.foldl insert empty

/-- The active proposals. -/
def toList (f : Features) : List Eip := Eip.all.filter f.has

/-- The proposals of a fork. -/
def ofFork (fork : Fork) : Features := ofList (Eip.all.filter (·.activeIn fork))

/-- The numbers of the active proposals in ascending order. -/
def numbers (f : Features) : List Nat := (f.toList.map Eip.number).mergeSort

/-- Whether the proposal of that number is active. -/
def hasNumber (f : Features) (n : Nat) : Bool := (Eip.ofNumber? n).any f.has

/-- What is wrong with a choice of proposals. -/
inductive Error where
  | unsupportedEip (number : Nat)
  | conflictingEips (eip conflictsWith : Nat)
  deriving DecidableEq, Repr

/-- The name of the error in reports. -/
def Error.name : Error → String
  | unsupportedEip _ => "UnsupportedEip"
  | conflictingEips _ _ => "ConflictingEips"

/-- What the error says. -/
def Error.message : Error → String
  | unsupportedEip number => s!"EIP-{number} is not supported"
  | conflictingEips eip conflictsWith =>
    s!"EIP-{eip} conflicts with active EIP-{conflictsWith}"

/-- The subroutine opcodes take the bytes of transient storage and of the memory copy. -/
def conflict? (f : Features) : Option Error :=
  if f.has .eip2315 then
    [Eip.eip1153, Eip.eip5656].find? f.has |>.map fun other =>
      .conflictingEips Eip.eip2315.number other.number
  else none

/-- Adds the proposals of the given numbers. -/
def insertNumbers (f : Features) : List Nat → Except Error Features
  | [] => .ok f
  | n :: rest =>
    match Eip.ofNumber? n with
    | none => .error (.unsupportedEip n)
    | some eip => (f.insert eip).insertNumbers rest

/-- The proposals of a fork and those of the given numbers. -/
def resolve (fork : Fork) (extra : List Nat) : Except Error Features := do
  let f ← (ofFork fork).insertNumbers extra
  match f.conflict? with
  | some e => .error e
  | none => .ok f

end Features

end Evm
