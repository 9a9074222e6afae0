import Evm.Env
import Evm.Gas.Price
import Evm.Request

/-!
# Hosts

Everything that an instruction needs beyond its own frame it asks of a host: the environment, the
accounts and their storage, and the running of further frames. A host is a record of operations on a
state of its own. A read or write of the state may fail, and then the frame cannot go on.
-/

namespace Evm

/-- A log entry. -/
structure Log where
  address : Address
  topics : List Word
  data : Bytes
  deriving DecidableEq, Repr

/-- A value together with whether this was the first access to it. -/
structure Loaded (α : Type) where
  value : α
  isCold : Bool
  deriving DecidableEq, Repr

/-- What the price of a call depends on. -/
structure AccountPresence where
  /-- There is a record of the account. -/
  exists_ : Bool
  /-- The account has no code, a zero nonce and no balance. -/
  isEmpty : Bool
  deriving DecidableEq, Repr

/-- Operations of a host that may fail. -/
abbrev HostM (σ : Type) := OptionT (StateM σ)

/-- A host whose state is a `σ`. -/
structure Host (σ : Type) where
  env : σ → Env
  /-- Sees the frame before every instruction and may stop it. -/
  beforeStep : Frame → σ → Frame × σ
  /-- Sees the frame after every instruction. -/
  afterStep : Frame → σ → Frame × σ
  /-- Accesses an account. -/
  presence : Address → HostM σ (Loaded AccountPresence)
  balance : Address → HostM σ (Loaded Word)
  code : Address → HostM σ (Loaded Code)
  /-- The hash of an account's code, zero for an account that is empty or not there. -/
  codeHash : Address → HostM σ (Loaded Hash)
  loadSlot : Address → Word → HostM σ (Loaded Word)
  /-- Sets a slot and tells what it held. -/
  storeSlot : Address → Word → Word → HostM σ (Loaded Gas.SlotWrite)
  loadTransient : Address → Word → StateM σ Word
  storeTransient : Address → Word → Word → StateM σ Unit
  log : Log → StateM σ Unit
  /-- Has the first account deleted and its balance moved to the second. -/
  selfDestruct : Address → Address → HostM σ (Loaded Gas.Destruction)
  /-- Runs a call to its end. -/
  call : CallRequest → StateM σ CallResponse
  /-- Runs a creation to its end. -/
  create : CreateRequest → StateM σ CreateResponse

end Evm
