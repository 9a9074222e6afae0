import Evm.Env.Block
import Evm.Env.Config
import Evm.Env.Transaction

/-!
# The environment

What stays fixed while a transaction runs.
-/

namespace Evm

/-- Configuration, block and transaction. -/
structure Env where
  config : Config := {}
  block : Block := {}
  transaction : Transaction := {}
  deriving DecidableEq, Repr

namespace Env

instance : Inhabited Env := ⟨{}⟩

/-- The active proposals. -/
def features (e : Env) : Features := e.config.features

/-- Price that the sender pays per gas. -/
def gasPrice (e : Env) : Word := e.transaction.effectiveGasPrice e.block.baseFee

end Env

end Evm
