import Evm.State.World

/-!
# Flushing

A flush turns the pending writes of all caches into one batch: code, incarnations, accounts and
slots, each in key order, and then the removal of all slots of incarnations that are over. Slots
written in such an incarnation are left out.
-/

namespace Evm

/-- What a flush writes. -/
structure Changeset where
  /-- Account records, none for deleted accounts. -/
  accounts : List (Address × Option Account) := []
  /-- Slots, zero for cleared ones. -/
  storage : List (SlotKey × Word) := []
  code : List (Hash × Bytes) := []
  incarnations : List (Address × UInt64) := []
  /-- Incarnations whose slots are removed. -/
  pruned : List (Address × UInt64) := []

/-- Whether nothing is written. -/
def Changeset.isEmpty (c : Changeset) : Bool :=
  c.accounts.isEmpty && c.storage.isEmpty && c.code.isEmpty && c.incarnations.isEmpty &&
    c.pruned.isEmpty

/-! ## Batches -/

namespace BatchOp

/-- The write that brings a piece of code to the store. -/
def ofCode (hash : Hash) (bytes : Bytes) : BatchOp := .put (StoreKey.code hash) bytes

/-- The write that brings an account record to the store. -/
def ofAccount (a : Address) : Option Account → BatchOp
  | some record => .put (StoreKey.account a) record.encode.toArray
  | none => .del (StoreKey.account a)

/-- The write that brings a slot to the store. -/
def ofSlot (key : SlotKey) : Option Word → BatchOp
  | some value => .put (StoreKey.slot key) (Rlp.encodeNat value.toNat).toArray
  | none => .del (StoreKey.slot key)

/-- The write that brings an incarnation to the store. -/
def ofIncarnation (a : Address) (n : UInt64) : BatchOp :=
  .put (StoreKey.incarnation a) (Bytes.ofNat 8 n.toNat)

/-- The removal of all slots of an incarnation. -/
def prune (a : Address) (n : UInt64) : BatchOp := .delPrefix (StoreKey.storage a n)

end BatchOp

/-- What a flush takes from the caches, and the incarnations that are over. -/
structure Pending where
  code : List (Hash × Bytes)
  incarnations : List (Address × UInt64)
  accounts : List (Address × Option Account)
  slots : List (SlotKey × Option Word)
  pruned : List (Address × UInt64)

namespace Pending

/-- The batch that brings it to the store. -/
def ops (p : Pending) : List BatchOp :=
  p.code.map (fun e => .ofCode e.1 e.2) ++
  p.incarnations.map (fun e => .ofIncarnation e.1 e.2) ++
  p.accounts.map (fun e => .ofAccount e.1 e.2) ++
  p.slots.map (fun e => .ofSlot e.1 e.2) ++
  p.pruned.map fun e => .prune e.1 e.2

/-- What is written by it. -/
def changes (p : Pending) : Changeset where
  accounts := p.accounts
  storage := p.slots.map fun (key, value) => (key, value.getD 0)
  code := p.code
  incarnations := p.incarnations
  pruned := p.pruned

end Pending

namespace World

/-- Of some accounts with their latest incarnations, those whose incarnation in the store is lower,
with the latter. -/
def superseded : List (Address × UInt64) → WorldM (List (Address × UInt64))
  | [] => return []
  | (a, latest) :: rest => do
    let flushed := (← Table.incarnations.loadClean a).getD 0
    let others ← superseded rest
    return if flushed < latest then (a, flushed) :: others else others

/-- Whether a slot is of an incarnation that has come to an end since the last flush. -/
def isOver (latest : Std.ExtTreeMap Address (Option UInt64)) (key : SlotKey) : Bool :=
  (latest[key.address]?).any fun n => key.incarnation < n.getD 0

/-- Takes the pending writes of all caches. -/
def prepareFlush : WorldM Pending := do
  let w ← get
  if 0 < w.depth then throw (.cache (.openCheckpoints w.depth))
  else
    let latest := w.incarnations.dirty
    let pruned ← superseded (latest.toList.map fun (a, n) => (a, n.getD 0))
    let code ← Table.code.drain
    let incarnations ← Table.incarnations.drain
    let accounts ← Table.accounts.drain
    let slots ← Table.storage.drain
    return {
      code := code.filterMap fun (h, c) => c.map fun c => (h, c.bytes)
      incarnations := incarnations.map fun (a, n) => (a, n.getD 0)
      accounts
      slots := slots.filter fun (key, _) => !isOver latest key
      pruned }

/-- Writes a batch to the store. -/
def writeBatch (ops : List BatchOp) : WorldM Unit := do
  match (← get).store.batch ops with
  | .error e => throw (.store e)
  | .ok store => modify fun w => { w with store }

/-- Writes everything pending to the store. Fails while checkpoints are open. -/
def flush : WorldM Changeset := do
  let pending ← prepareFlush
  writeBatch pending.ops
  return pending.changes

end World

end Evm
