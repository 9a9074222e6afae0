/-!
# Hard forks

The rule changes of the chain in the order in which they took effect.
-/

namespace Evm

/-- A hard fork. -/
inductive Fork where
  | frontier
  | homestead
  | tangerine
  | spuriousDragon
  | byzantium
  | constantinople
  | petersburg
  | istanbul
  | berlin
  | london
  | merge
  | shanghai
  | cancun
  deriving DecidableEq, Repr, Inhabited

namespace Fork

/-- All forks, oldest first. -/
def all : List Fork :=
  [frontier, homestead, tangerine, spuriousDragon, byzantium, constantinople, petersburg, istanbul,
    berlin, london, merge, shanghai, cancun]

/-- Place of the fork in the order of activation. -/
def id : Fork → Nat
  | frontier => 0
  | homestead => 1
  | tangerine => 2
  | spuriousDragon => 3
  | byzantium => 4
  | constantinople => 5
  | petersburg => 6
  | istanbul => 7
  | berlin => 8
  | london => 9
  | merge => 10
  | shanghai => 11
  | cancun => 12

/-- Whether the rules of `other` are part of this fork's. -/
def includes (fork other : Fork) : Bool := other.id ≤ fork.id

/-- The name of the fork. -/
def name : Fork → String
  | frontier => "Frontier"
  | homestead => "Homestead"
  | tangerine => "Tangerine"
  | spuriousDragon => "Spurious"
  | byzantium => "Byzantium"
  | constantinople => "Constantinople"
  | petersburg => "Petersburg"
  | istanbul => "Istanbul"
  | berlin => "Berlin"
  | london => "London"
  | merge => "Merge"
  | shanghai => "Shanghai"
  | cancun => "Cancun"

/-- The fork of that name, the case of ASCII letters aside. -/
def ofName? (s : String) : Option Fork :=
  all.find? fun fork => fork.name.map Char.toLower == s.map Char.toLower

end Fork

/-- A fork name that belongs to no fork. -/
inductive ForkNameError where
  | unknown
  deriving DecidableEq, Repr

/-- The name of the error in reports. -/
def ForkNameError.name : ForkNameError → String
  | unknown => "UnknownHardfork"

/-- What the error says. -/
def ForkNameError.message : ForkNameError → String
  | unknown => "unknown hardfork name"

/-- The fork of that name. -/
def Fork.ofName (s : String) : Except ForkNameError Fork :=
  match ofName? s with
  | some fork => .ok fork
  | none => .error .unknown

end Evm
