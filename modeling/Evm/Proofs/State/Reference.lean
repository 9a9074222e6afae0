import Mathlib.Logic.Function.Basic
import Evm.Proofs.State.Requests

/-!
# A world of plain maps

What a world is to those who ask it: maps of records, slots and code, a full copy of them for every
open checkpoint, and one as of the last flush. There are no caches, no keys and no store, and the
slots of an account that is deleted are simply emptied. `Reference.act` gives the answers that
`World.act` ought to give.
-/

namespace Evm

open Function (update)

/-- What a world holds. -/
structure Maps where
  accounts : Address → Option Account := fun _ => none
  slots : Address → Word → Word := fun _ _ => 0
  code : Hash → Code := fun _ => Code.empty
  /-- How often the storage of each account has been emptied. -/
  deletions : Address → UInt64 := fun _ => 0

namespace Maps

/-- Sets the record of an account. -/
def putAccount (m : Maps) (a : Address) (record : Account) : Maps :=
  { m with accounts := update m.accounts a (some record) }

/-- Empties the storage of an account. -/
def clearStorage (m : Maps) (a : Address) : Maps :=
  { m with
    slots := update m.slots a fun _ => 0
    deletions := update m.deletions a (m.deletions a + 1) }

/-- Removes the record of an account and empties its storage. -/
def deleteAccount (m : Maps) (a : Address) : Maps :=
  { m.clearStorage a with accounts := update m.accounts a none }

/-- Sets the value of a slot. -/
def setSlot (m : Maps) (a : Address) (index value : Word) : Maps :=
  { m with slots := update m.slots a (update (m.slots a) index value) }

/-- Keeps code under its hash. The code that is empty need not be kept. -/
def putCode (m : Maps) (code : Code) : Maps :=
  if code.hash = emptyHash then m else { m with code := update m.code code.hash code }

/-- The code of a hash. The hash of the empty code and zero both stand for the empty code. -/
def codeOfHash (m : Maps) (hash : Hash) : Code :=
  if hash = emptyHash ∨ hash = 0 then Code.empty else m.code hash

/-- The code of an account. -/
def codeOf (m : Maps) (a : Address) : Code :=
  (m.accounts a).elim Code.empty fun record => m.codeOfHash record.codeHash

/-- The maps with the changes that a flush has written. The slots of an account whose storage has
been emptied since are zero, unless they have been set again. -/
def updated (m : Maps) (changes : Changeset) : Maps :=
  let deletions a := (changes.incarnations.lookup a).getD (m.deletions a)
  { accounts a := (changes.accounts.lookup a).getD (m.accounts a)
    slots a index := (changes.storage.lookup ⟨a, deletions a, index⟩).getD
      (if deletions a = m.deletions a then m.slots a index else 0)
    code hash := (changes.code.lookup hash).elim (m.code hash) (Code.ofHashed · hash)
    deletions }

end Maps

/-- The maps, their copies at the open checkpoints, the latest first, and their copy as of the last
flush. -/
structure Reference where
  current : Maps := {}
  saved : List Maps := []
  flushed : Maps := {}

namespace World

/-- What can be done with a world: it can be asked for something, or another one can take its place
over the same store. -/
inductive Action where
  | request (request : Request)
  | reopen (kind : CleanKind)

/-- Acts on a world. -/
def act : Action → World → Except StateError Reply × World
  | .request request, w => (serve request).run w
  | .reopen kind, w => (.ok .done, ofStore w.store kind)

/-- Acts on a world several times. -/
def actAll : List Action → World → List (Except StateError Reply) × World
  | [], w => ([], w)
  | action :: rest, w =>
    let (reply, w) := act action w
    let (replies, w) := actAll rest w
    (reply :: replies, w)

/-- A reply without what a flush has written. -/
def Reply.plain : Reply → Reply
  | .flushed _ => .done
  | reply => reply

end World

namespace Reference

open World (Action Reply Request)

/-- Does something to the current maps. -/
def change (f : Maps → Maps) (r : Reference) : Except StateError Reply × Reference :=
  (.ok .done, { r with current := f r.current })

/-- Answers a request. -/
def serve : Request → Reference → Except StateError Reply × Reference
  | .account a, r => (.ok (.account (r.current.accounts a)), r)
  | .accountOrEmpty a, r => (.ok (.record ((r.current.accounts a).getD {})), r)
  | .exists? a, r => (.ok (.flag (r.current.accounts a).isSome), r)
  | .putAccount a record, r => r.change (·.putAccount a record)
  | .deleteAccount a, r => r.change (·.deleteAccount a)
  | .clearStorage a, r => r.change (·.clearStorage a)
  | .incarnation a, r => (.ok (.incarnation (r.current.deletions a)), r)
  | .slot a index, r => (.ok (.word (r.current.slots a index)), r)
  | .setSlot a index value, r => r.change (·.setSlot a index value)
  | .flushedSlot a index, r =>
    let kept := r.current.deletions a = r.flushed.deletions a
    (.ok (.word (if kept then r.flushed.slots a index else 0)), r)
  | .putCode code, r => r.change (·.putCode code)
  | .codeOfHash hash, r => (.ok (.code (r.current.codeOfHash hash)), r)
  | .codeOf a, r => (.ok (.code (r.current.codeOf a)), r)
  | .checkpoint, r => (.ok .done, { r with saved := r.current :: r.saved })
  | .commit, r =>
    match r.saved with
    | [] => (.error (.cache .noCheckpoint), r)
    | _ :: below => (.ok .done, { r with saved := below })
  | .revert, r =>
    match r.saved with
    | [] => (.error (.cache .noCheckpoint), r)
    | latest :: below => (.ok .done, { r with current := latest, saved := below })
  | .depth, r => (.ok (.count r.saved.length), r)
  | .flush, r =>
    match r.saved with
    | [] => (.ok .done, { r with flushed := r.current })
    | saved => (.error (.cache (.openCheckpoints saved.length)), r)

/-- What was not flushed is lost when the world is reopened. -/
def act : Action → Reference → Except StateError Reply × Reference
  | .request request, r => r.serve request
  | .reopen _, r => (.ok .done, { r with current := r.flushed, saved := [] })

/-- Acts several times. -/
def actAll : List Action → Reference → List (Except StateError Reply) × Reference
  | [], r => ([], r)
  | action :: rest, r =>
    let (reply, r) := r.act action
    let (replies, r) := actAll rest r
    (reply :: replies, r)

/-- The action would empty the storage of an account once too often to be counted. -/
def Overflows (r : Reference) : Action → Prop
  | .request request =>
    request.raised?.any fun a => r.current.deletions a = UInt64.ofNat Count.max
  | .reopen _ => False

instance (r : Reference) : (action : Action) → Decidable (r.Overflows action)
  | .request _ => inferInstanceAs (Decidable (_ = true))
  | .reopen _ => inferInstanceAs (Decidable False)

/-- No counter overflows on the way. -/
def NoneOverflows : List Action → Reference → Prop
  | [], _ => True
  | action :: rest, r => ¬r.Overflows action ∧ NoneOverflows rest (r.act action).2

instance decidableNoneOverflows :
    (actions : List Action) → (r : Reference) → Decidable (NoneOverflows actions r)
  | [], _ => .isTrue trivial
  | action :: rest, r =>
    have := decidableNoneOverflows rest (r.act action).2
    inferInstanceAs (Decidable (_ ∧ _))

end Reference

end Evm
