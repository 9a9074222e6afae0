import Evm.Hex
import Evm.State.Account
import Evm.State.Cache
import Evm.State.Store

/-!
# World state

Accounts, their storage and their code on top of a backing store. Deleting an account raises its
incarnation, a counter that is part of every slot's key, so all slots of the deleted account are out
of reach without being enumerated; the next flush removes them from the store.
-/

namespace Evm

/-- A storage slot of one incarnation of an account. -/
structure SlotKey where
  address : Address
  incarnation : UInt64
  slot : Word
  deriving DecidableEq, Repr

namespace SlotKey

/-- Slots are ordered by account, then incarnation, then index. -/
def cmp : SlotKey → SlotKey → Ordering :=
  compareLex (compareOn address) (compareLex (compareOn incarnation) (compareOn slot))

instance : Ord SlotKey := ⟨cmp⟩

instance : Std.TransOrd SlotKey :=
  inferInstanceAs (Std.TransCmp
    (compareLex (compareOn address) (compareLex (compareOn incarnation) (compareOn slot))))

instance : Std.LawfulEqOrd SlotKey where
  compare_self := Std.ReflOrd.compare_self
  eq_of_compare {a b} h := by
    have h' : cmp a b = .eq := h
    simp only [cmp, compareLex_eq_eq, compareOn] at h'
    obtain ⟨h1, h2, h3⟩ := h'
    cases a
    cases b
    simp_all

end SlotKey

/-- Failure to read or write the world. -/
inductive StateError where
  | store (error : StoreError)
  | corrupt (key : Key)
  | decode (error : Rlp.Error)
  | cache (error : CacheError)
  deriving DecidableEq, Repr

/-- The name of the error in reports. -/
def StateError.name : StateError → String
  | store _ => "Store"
  | corrupt _ => "Corrupt"
  | decode _ => "Decode"
  | cache _ => "Cache"

/-- What the error says. -/
def StateError.message : StateError → String
  | store error => s!"backing store: {error.message}"
  | corrupt key => "corrupt record under key 0x" ++ Hex.encode key.toArray
  | decode error => error.message
  | cache error => error.message

/-- World state: the store and a cache for each kind of record. -/
structure World where
  store : Store
  accounts : Cache Address Account
  storage : Cache SlotKey Word
  code : Cache Hash Code
  incarnations : Cache Address UInt64

/-- Operations on the world. What they have read before failing stays cached. -/
abbrev WorldM := ExceptT StateError (StateM World)

/-! ## Keys of the store -/

namespace StoreKey

/-- Key of an account record. -/
def account (a : Address) : Key := 0x61 :: (Bytes.ofAddress a).toList

/-- What the keys of all slots of one incarnation begin with. -/
def storage (a : Address) (incarnation : UInt64) : Key :=
  0x73 :: (Bytes.ofAddress a).toList ++ (Bytes.ofNat 8 incarnation.toNat).toList

/-- Key of a slot. -/
def slot (k : SlotKey) : Key := storage k.address k.incarnation ++ (Bytes.ofWord k.slot).toList

/-- Key of a piece of code. -/
def code (h : Hash) : Key := 0x63 :: (Bytes.ofWord h).toList

/-- Key of an incarnation. -/
def incarnation (a : Address) : Key := 0x69 :: (Bytes.ofAddress a).toList

end StoreKey

/-! ## Tables -/

/-- One kind of record: its cache, its keys in the store, and how a stored value is read. -/
structure Table (κ ν : Type) [Ord κ] [Std.TransOrd κ] where
  cache : World → Cache κ ν
  setCache : World → Cache κ ν → World
  key : κ → Key
  decode : κ → Bytes → Except StateError ν

namespace Table

variable {κ ν : Type} [Ord κ] [Std.TransOrd κ]

/-- Applies an operation to the cache of the table. -/
def onCache {α : Type} (t : Table κ ν) (f : Cache κ ν → α × Cache κ ν) : WorldM α :=
  modifyGet fun w =>
    let (a, c) := f (t.cache w)
    (a, t.setCache w c)

/-- Reads a key from the store and tells the cache. -/
def fetch (t : Table κ ν) (key : κ) : WorldM (Option ν) := do
  match (← get).store.get (t.key key) with
  | .error e => throw (.store e)
  | .ok none =>
    t.onCache fun c => ((), c.fill key none)
    return none
  | .ok (some raw) =>
    match t.decode key raw with
    | .error e => throw e
    | .ok value =>
      t.onCache fun c => ((), c.fill key (some value))
      return some value

/-- Reads a key, asking the store if the cache does not know. -/
def load (t : Table κ ν) (key : κ) : WorldM (Option ν) := do
  match (← t.onCache (·.get key)).known? with
  | some value => return value
  | none => t.fetch key

/-- Reads a key as of the last flush. -/
def loadClean (t : Table κ ν) (key : κ) : WorldM (Option ν) := do
  match (← t.onCache (·.getClean key)).known? with
  | some value => return value
  | none => t.fetch key

/-- Writes a value. -/
def put (t : Table κ ν) (key : κ) (value : ν) : WorldM Unit :=
  t.onCache fun c => ((), c.put key value)

/-- Deletes a key. -/
def del (t : Table κ ν) (key : κ) : WorldM Unit := t.onCache fun c => ((), c.del key)

/-- Takes the pending writes. -/
def drain (t : Table κ ν) : WorldM (List (κ × Option ν)) := do
  match (t.cache (← get)).flush with
  | .error e => throw (.cache e)
  | .ok (entries, c) =>
    modify (t.setCache · c)
    return entries

end Table

namespace Table

/-- Account records. -/
def accounts : Table Address Account where
  cache := World.accounts
  setCache w c := { w with accounts := c }
  key := StoreKey.account
  decode _ raw := (Account.decode raw.toList).mapError .decode

/-- Storage slots. A slot without a record is zero. -/
def storage : Table SlotKey Word where
  cache := World.storage
  setCache w c := { w with storage := c }
  key := StoreKey.slot
  decode _ raw := (Rlp.exact Rlp.word raw.toList).mapError .decode

/-- Code by its hash. -/
def code : Table Hash Code where
  cache := World.code
  setCache w c := { w with code := c }
  key := StoreKey.code
  decode hash raw := .ok (Code.ofHashed raw hash)

/-- Incarnations. -/
def incarnations : Table Address UInt64 where
  cache := World.incarnations
  setCache w c := { w with incarnations := c }
  key := StoreKey.incarnation
  decode a raw :=
    if raw.size = 8 then .ok (UInt64.ofNat raw.toNat)
    else .error (.corrupt (StoreKey.incarnation a))

end Table

namespace World

/-- A world over a store, nothing read yet. -/
def ofStore (store : Store) (kind : CleanKind) : World where
  store := store
  accounts := .empty kind
  storage := .empty kind
  code := .empty kind
  incarnations := .empty kind

instance : Inhabited World := ⟨ofStore {} .ordered⟩

/-! ## Accounts -/

/-- The record of an account. -/
def account (a : Address) : WorldM (Option Account) := Table.accounts.load a

/-- The record of an account, that of an empty one if there is none. -/
def accountOrEmpty (a : Address) : WorldM Account := do
  return (← account a).getD {}

/-- Whether there is a record of the account. -/
def exists? (a : Address) : WorldM Bool := do
  return (← account a).isSome

/-- Writes the record of an account. -/
def putAccount (a : Address) (record : Account) : WorldM Unit := Table.accounts.put a record

/-- The incarnation of an account. -/
def incarnation (a : Address) : WorldM UInt64 := do
  return (← Table.incarnations.load a).getD 0

/-- Clears the storage of an account. -/
def clearStorage (a : Address) : WorldM Unit := do
  let incarnation ← incarnation a
  Table.incarnations.put a (incarnation + 1)

/-- Deletes an account together with its storage. -/
def deleteAccount (a : Address) : WorldM Unit := do
  let incarnation ← incarnation a
  Table.accounts.del a
  Table.incarnations.put a (incarnation + 1)

/-! ## Storage -/

/-- The value of a slot. -/
def slot (a : Address) (index : Word) : WorldM Word := do
  let incarnation ← incarnation a
  return (← Table.storage.load ⟨a, incarnation, index⟩).getD 0

/-- The value of a slot as of the last flush, zero if the account has been deleted since. -/
def flushedSlot (a : Address) (index : Word) : WorldM Word := do
  let current ← incarnation a
  let flushed := (← Table.incarnations.loadClean a).getD 0
  if current = flushed then
    return (← Table.storage.loadClean ⟨a, flushed, index⟩).getD 0
  else return 0

/-- Sets the value of a slot. A slot that becomes zero loses its record. -/
def setSlot (a : Address) (index value : Word) : WorldM Unit := do
  let incarnation ← incarnation a
  let key : SlotKey := ⟨a, incarnation, index⟩
  if value = 0 then Table.storage.del key else Table.storage.put key value

/-! ## Code -/

/-- The code of that hash, empty if there is none. -/
def codeOfHash (hash : Hash) : WorldM Code := do
  if hash = emptyHash ∨ hash = 0 then return Code.empty
  else return (← Table.code.load hash).getD Code.empty

/-- The code of an account. -/
def codeOf (a : Address) : WorldM Code := do
  match ← account a with
  | some record => codeOfHash record.codeHash
  | none => return Code.empty

/-- Stores code under its hash. -/
def putCode (code : Code) : WorldM Unit := do
  if code.hash ≠ emptyHash then Table.code.put code.hash code

/-! ## Checkpoints -/

/-- Number of open checkpoints. -/
def depth (w : World) : Nat := w.accounts.depth

/-- Opens a checkpoint on every cache. -/
def checkpoint (w : World) : World :=
  { w with
    accounts := w.accounts.checkpoint
    storage := w.storage.checkpoint
    code := w.code.checkpoint
    incarnations := w.incarnations.checkpoint }

/-- Keeps the writes since the latest checkpoint. -/
def commit (w : World) : Except CacheError World := do
  let accounts ← w.accounts.commit
  let storage ← w.storage.commit
  let code ← w.code.commit
  let incarnations ← w.incarnations.commit
  return { w with accounts, storage, code, incarnations }

/-- Undoes the writes since the latest checkpoint. -/
def revert (w : World) : Except CacheError World := do
  let accounts ← w.accounts.revert
  let storage ← w.storage.revert
  let code ← w.code.revert
  let incarnations ← w.incarnations.revert
  return { w with accounts, storage, code, incarnations }

end World

end Evm
