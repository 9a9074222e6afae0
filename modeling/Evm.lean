import Evm.Host.Sandbox
import Evm.Machine.Transaction
import Evm.Proofs.Execution.Arithmetic
import Evm.Proofs.Execution.Congruence
import Evm.Proofs.Execution.ControlFlow
import Evm.Proofs.Execution.Copying
import Evm.Proofs.Execution.Handover
import Evm.Proofs.Gas.Exponent
import Evm.Proofs.Gas.NetMetering
import Evm.Proofs.Journal.Reference
import Evm.Proofs.Ledger
import Evm.Proofs.Machine.Accounts
import Evm.Proofs.Machine.Coupling
import Evm.Proofs.Machine.Deployment
import Evm.Proofs.Machine.Failures
import Evm.Proofs.Machine.Gas
import Evm.Proofs.Machine.GasBounds
import Evm.Proofs.Machine.Handover
import Evm.Proofs.Machine.Isolation
import Evm.Proofs.Machine.Lockstep
import Evm.Proofs.Machine.Meters
import Evm.Proofs.Machine.Onlookers
import Evm.Proofs.Machine.Precompiles
import Evm.Proofs.Machine.Refunds
import Evm.Proofs.Machine.Rejection
import Evm.Proofs.Machine.Rollback
import Evm.Proofs.Machine.Settlement
import Evm.Proofs.Machine.Static
import Evm.Proofs.Machine.Succession
import Evm.Proofs.Machine.Sufficiency
import Evm.Proofs.Machine.Termination
import Evm.Proofs.Machine.Tracing
import Evm.Proofs.Machine.Transaction
import Evm.Proofs.Machine.Upkeep
import Evm.Proofs.Precompile.Inputs
import Evm.Proofs.Precompile.Powers
import Evm.Proofs.Precompile.Price
import Evm.Proofs.Rlp.Canonical
import Evm.Proofs.State.Batch
import Evm.Proofs.State.Contents
import Evm.Proofs.State.Copies
import Evm.Proofs.State.Durability
import Evm.Proofs.State.Flush
import Evm.Proofs.State.Reference
