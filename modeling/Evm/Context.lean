import Evm.Event
import Evm.Journal
import Evm.State.Flush

/-!
# The execution context

Environment, world and journal together. Checkpoints are opened and closed on the world and on the
journal at once. The context also collects the events that the work on it gives rise to.
-/

namespace Evm

/-- What execution works on. -/
structure Context where
  env : Env := {}
  world : World
  journal : Journal := {}
  /-- What has happened, the latest first. -/
  events : List Event := []

/-- Operations on the context that may fail. What they did before failing stays done. -/
abbrev ContextM (ε : Type) := ExceptT ε (StateM Context)

namespace Context

/-- A context over a world. -/
def ofWorld (env : Env) (world : World) : Context := { env, world }

instance : Inhabited Context := ⟨ofWorld {} default⟩

/-- The active proposals. -/
def features (c : Context) : Features := c.env.features

/-- Number of open checkpoints. -/
def depth (c : Context) : Nat := c.world.depth

/-- Reports an event. -/
def report (c : Context) (e : Event) : Context := { c with events := e :: c.events }

/-- Changes the journal. -/
def onJournal {α : Type} (f : Journal → α × Journal) (c : Context) : α × Context :=
  let (a, journal) := f c.journal
  (a, { c with journal })

/-- Does something on the world. -/
def onWorld {α : Type} (op : WorldM α) : ContextM StateError α := fun c =>
  let (r, world) := op.run c.world
  (r, { c with world })

/-! ## Checkpoints -/

/-- Opens a checkpoint. -/
def checkpoint (c : Context) : Context :=
  let c := { c with world := c.world.checkpoint, journal := c.journal.checkpoint }
  c.report (.checkpoint c.depth)

/-- Keeps the changes since the latest checkpoint. -/
def commit : ContextM CacheError Unit := fun c =>
  match c.world.commit with
  | .error e => (.error e, c)
  | .ok world =>
    match c.journal.commit? with
    | none => (.error .noCheckpoint, { c with world })
    | some journal =>
      let c := { c with world, journal }
      (.ok (), c.report (.commit c.depth))

/-- Undoes the changes since the latest checkpoint. -/
def revert : ContextM CacheError Unit := fun c =>
  match c.world.revert with
  | .error e => (.error e, c)
  | .ok world =>
    match c.journal.revert? with
    | none => (.error .noCheckpoint, { c with world })
    | some journal =>
      let c := { c with world, journal }
      (.ok (), c.report (.revert c.depth))

/-- Undoes the changes since the latest checkpoint; if that is not possible, it is only reported. -/
def abandon (c : Context) : Context :=
  match revert.run c with
  | (.ok (), c) => c
  | (.error e, c) => c.report (.revertFailed e)

/-! ## The end of a transaction -/

/-- Deletes those of some accounts that are there and empty, and gives their addresses. -/
def deleteEmpty : List Address → WorldM (List Address)
  | [] => return []
  | a :: rest => do
    match ← World.account a with
    | some record =>
      if record.isEmpty then
        World.deleteAccount a
        return a :: (← deleteEmpty rest)
      else deleteEmpty rest
    | none => deleteEmpty rest

/-- Deletes the touched accounts that are empty, in ascending order. -/
def cleanup : ContextM StateError (List Address) := do
  let c ← get
  if c.features.has .eip161 then
    let deleted ← onWorld (deleteEmpty c.journal.touchedList)
    if !deleted.isEmpty then modify (report · (.cleaned deleted.length))
    return deleted
  else return []

/-- Writes everything pending to the store. -/
def flush : ContextM StateError Changeset := do
  let pending ← onWorld World.prepareFlush
  modify (report · (.flushing pending.ops.length))
  onWorld (World.writeBatch pending.ops)
  return pending.changes

end Context

end Evm
