import Std.Data.ExtTreeMap

/-!
# Caches with checkpoints

A cache keeps apart what the store is known to hold (the clean layer, which may forget) and what
has been written since (the dirty layer, which may not). Every open checkpoint has a diff: for each
key written since, what the dirty layer said before the first of those writes. Reverting puts the
diff back; committing hands it to the checkpoint below, which keeps its own older entries.
-/

namespace Evm

/-- How the clean layer keeps entries. -/
inductive CleanKind where
  /-- All of them. -/
  | ordered
  /-- The given number of most recently used ones. -/
  | recent (capacity : Nat)
  deriving DecidableEq, Repr

/-- Entries known to agree with the store; no value stands for a key known to be absent there. -/
inductive CleanLayer (κ ν : Type) [Ord κ] [Std.TransOrd κ] where
  | ordered (entries : Std.ExtTreeMap κ (Option ν))
  /-- Entries from the most to the least recently used. -/
  | recent (capacity : Nat) (entries : List (κ × Option ν))

namespace CleanLayer

variable {κ ν : Type} [Ord κ] [Std.TransOrd κ]

/-- A layer without entries. -/
def empty : CleanKind → CleanLayer κ ν
  | .ordered => ordered ∅
  | .recent capacity => recent capacity []

/-- Number of entries. -/
def size : CleanLayer κ ν → Nat
  | ordered entries => entries.size
  | recent _ entries => entries.length

/-- The layer without entries, of the same kind. -/
def clear : CleanLayer κ ν → CleanLayer κ ν
  | ordered _ => ordered ∅
  | recent capacity _ => recent capacity []

/-- Whether two keys are the same. -/
def sameKey (a b : κ) : Bool := compare a b == .eq

/-- The entry of a key, which becomes the most recently used one. -/
def get (key : κ) : CleanLayer κ ν → Option (Option ν) × CleanLayer κ ν
  | ordered entries => (entries[key]?, ordered entries)
  | recent capacity entries =>
    match entries.find? (sameKey key ·.1) with
    | none => (none, recent capacity entries)
    | some e => (some e.2, recent capacity (e :: entries.eraseP (sameKey key ·.1)))

/-- Sets the entry of a key. If there is no room for it, the least recently used entry goes. -/
def insert (key : κ) (value : Option ν) : CleanLayer κ ν → CleanLayer κ ν
  | ordered entries => ordered (entries.insert key value)
  | recent capacity entries =>
    recent capacity (((key, value) :: entries.eraseP (sameKey key ·.1)).take capacity)

end CleanLayer

/-- Answer of a cache to a read. -/
inductive Lookup (ν : Type) where
  | present (value : ν)
  | absent
  /-- Only the store knows. -/
  | unknown
  deriving DecidableEq, Repr

namespace Lookup

variable {ν : Type}

/-- The answer that an entry gives. -/
def ofEntry : Option ν → Lookup ν
  | some value => present value
  | none => absent

/-- The answer as an entry, if it is one. -/
def known? : Lookup ν → Option (Option ν)
  | present value => some (some value)
  | absent => some none
  | unknown => none

end Lookup

/-- Misuse of checkpoints. -/
inductive CacheError where
  | noCheckpoint
  | openCheckpoints (count : Nat)
  deriving DecidableEq, Repr

/-- The name of the error in reports. -/
def CacheError.name : CacheError → String
  | noCheckpoint => "NoCheckpoint"
  | openCheckpoints _ => "OpenCheckpoints"

/-- What the error says. -/
def CacheError.message : CacheError → String
  | noCheckpoint => "no open checkpoint"
  | openCheckpoints count => s!"cannot flush with {count} open checkpoint(s)"

/-- What the dirty layer said about a key. -/
inductive Prior (ν : Type) where
  | dirty (value : Option ν)
  | clean
  deriving DecidableEq, Repr

/-- A cache. The diffs are those of the open checkpoints, the latest first. -/
structure Cache (κ ν : Type) [Ord κ] [Std.TransOrd κ] where
  clean : CleanLayer κ ν
  dirty : Std.ExtTreeMap κ (Option ν) := ∅
  diffs : List (Std.ExtTreeMap κ (Prior ν)) := []

namespace Cache

variable {κ ν : Type} [Ord κ] [Std.TransOrd κ]

/-- A cache that knows nothing. -/
def empty (kind : CleanKind) : Cache κ ν := { clean := .empty kind }

/-- Number of open checkpoints. -/
def depth (c : Cache κ ν) : Nat := c.diffs.length

/-- Reads a key as of the last flush. -/
def getClean (c : Cache κ ν) (key : κ) : Lookup ν × Cache κ ν :=
  match c.clean.get key with
  | (some entry, clean) => (.ofEntry entry, { c with clean })
  | (none, clean) => (.unknown, { c with clean })

/-- Reads a key. -/
def get (c : Cache κ ν) (key : κ) : Lookup ν × Cache κ ν :=
  match c.dirty[key]? with
  | some entry => (.ofEntry entry, c)
  | none => c.getClean key

/-- Records what the store holds under a key that the clean layer does not know. -/
def fill (c : Cache κ ν) (key : κ) (value : Option ν) : Cache κ ν :=
  { c with clean := c.clean.insert key value }

/-- What the dirty layer says about a key. -/
def prior (c : Cache κ ν) (key : κ) : Prior ν :=
  match c.dirty[key]? with
  | some entry => .dirty entry
  | none => .clean

/-- Records in the latest diff what the dirty layer says about a key, unless that has been done. -/
def capture (c : Cache κ ν) (key : κ) : Cache κ ν :=
  match c.diffs with
  | [] => c
  | diff :: below => { c with diffs := diff.insertIfNew key (c.prior key) :: below }

/-- Writes an entry. -/
def write (c : Cache κ ν) (key : κ) (value : Option ν) : Cache κ ν :=
  let c := c.capture key
  { c with dirty := c.dirty.insert key value }

/-- Writes a value. -/
def put (c : Cache κ ν) (key : κ) (value : ν) : Cache κ ν := c.write key (some value)

/-- Deletes a key. -/
def del (c : Cache κ ν) (key : κ) : Cache κ ν := c.write key none

/-- Opens a checkpoint. -/
def checkpoint (c : Cache κ ν) : Cache κ ν := { c with diffs := ∅ :: c.diffs }

/-- Keeps the writes since the latest checkpoint. -/
def commit (c : Cache κ ν) : Except CacheError (Cache κ ν) :=
  match c.diffs with
  | [] => .error .noCheckpoint
  | [_] => .ok { c with diffs := [] }
  | diff :: parent :: below =>
    let folded := diff.foldl (fun p key prior => p.insertIfNew key prior) parent
    .ok { c with diffs := folded :: below }

/-- Puts one entry of a diff back. -/
def restore (dirty : Std.ExtTreeMap κ (Option ν)) (key : κ) :
    Prior ν → Std.ExtTreeMap κ (Option ν)
  | .dirty value => dirty.insert key value
  | .clean => dirty.erase key

/-- Undoes the writes since the latest checkpoint. -/
def revert (c : Cache κ ν) : Except CacheError (Cache κ ν) :=
  match c.diffs with
  | [] => .error .noCheckpoint
  | diff :: below => .ok { c with dirty := diff.foldl restore c.dirty, diffs := below }

/-- Moves the dirty entries to the clean layer, in key order, and gives them. -/
def flush (c : Cache κ ν) : Except CacheError (List (κ × Option ν) × Cache κ ν) :=
  if c.depth = 0 then
    let entries := c.dirty.toList
    let clean := entries.foldl (fun layer e => layer.insert e.1 e.2) c.clean
    .ok (entries, { c with clean, dirty := ∅ })
  else .error (.openCheckpoints c.depth)

/-- Forgets everything, open checkpoints included. -/
def clear (c : Cache κ ν) : Cache κ ν := { clean := c.clean.clear }

end Cache

end Evm
