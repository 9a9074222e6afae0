import Std.Data.ExtTreeMap
import Evm.Bytes

/-!
# The backing store

An ordered map from keys to values that takes its writes in batches. A store may be told to fail:
reads of keys with certain beginnings, or every batch.
-/

namespace Evm

/-- A key of the store. -/
abbrev Key := List UInt8

/-- One write of a batch. -/
inductive BatchOp where
  | put (key : Key) (value : Bytes)
  | del (key : Key)
  /-- Removes every key with that beginning. -/
  | delPrefix (start : Key)
  deriving DecidableEq, Repr

/-- Failure of a store. -/
inductive StoreError where
  | get
  | batch
  deriving DecidableEq, Repr

/-- What the error says. -/
def StoreError.message : StoreError → String
  | get => "injected get failure"
  | batch => "injected batch failure"

/-- Which operations of a store fail. -/
structure Faults where
  /-- Beginnings of the keys that cannot be read. -/
  unreadable : List Key := []
  /-- Whether batches fail. -/
  batch : Bool := false
  deriving DecidableEq, Repr

/-- A store. -/
structure Store where
  entries : Std.ExtTreeMap Key Bytes := ∅
  faults : Faults := {}

namespace Store

instance : Inhabited Store := ⟨{}⟩

/-- Number of keys. -/
def size (s : Store) : Nat := s.entries.size

/-- The value of a key. -/
def get (s : Store) (key : Key) : Except StoreError (Option Bytes) :=
  if s.faults.unreadable.any (·.isPrefixOf key) then .error .get else .ok s.entries[key]?

/-- Sets the value of a key. -/
def put (s : Store) (key : Key) (value : Bytes) : Store :=
  { s with entries := s.entries.insert key value }

/-- Removes a key. -/
def del (s : Store) (key : Key) : Store := { s with entries := s.entries.erase key }

/-- The keys with the given beginning. Keys are in lexicographic order, so these stand together,
from the beginning itself on. -/
def keysWithPrefix (s : Store) (start : Key) : List Key :=
  (s.entries.keys.dropWhile fun key => compare key start == .lt).takeWhile start.isPrefixOf

/-- Applies one write. -/
def apply (s : Store) : BatchOp → Store
  | .put key value => s.put key value
  | .del key => s.del key
  | .delPrefix start => (s.keysWithPrefix start).foldl del s

/-- Applies writes in order, all or none. -/
def batch (s : Store) (ops : List BatchOp) : Except StoreError Store :=
  if s.faults.batch then .error .batch else .ok (ops.foldl apply s)

end Store

end Evm
