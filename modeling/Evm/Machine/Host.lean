import Evm.Machine

/-!
# The machine as a host

What the instructions of a frame see of the machine. Reads and writes go to the world, the first
access to an account or slot is found out from the journal, and calls and creations become messages
for `run`, which runs them to their end.
-/

namespace Evm.Machine

variable {ι α : Type}

/-- Does something on the world; a failure is parked. -/
def attempt (op : WorldM α) : HostM (Machine ι) α := fun m =>
  match (onWorld op).run m with
  | (.ok a, m) => (some a, m)
  | (.error e, m) => (none, m.park e)

/-- Accesses an account and tells whether it was cold. -/
def access (a : Address) : HostM (Machine ι) Bool := fun m =>
  let (isCold, context) := m.context.onJournal (·.access a)
  (some isCold, { m with context })

/-- Accesses a slot and tells whether it was cold. -/
def accessSlot (s : Slot) : HostM (Machine ι) Bool := fun m =>
  let (isCold, context) := m.context.onJournal (·.accessSlot s)
  (some isCold, { m with context })

/-! ## Accounts -/

/-- Whether there is an account, and whether it is empty. -/
def presence (a : Address) : HostM (Machine ι) (Loaded AccountPresence) := do
  let isCold ← access a
  let record? ← attempt (World.account a)
  return ⟨⟨record?.isSome, record?.all Account.isEmpty⟩, isCold⟩

/-- The balance of an account. -/
def balance (a : Address) : HostM (Machine ι) (Loaded Word) := do
  let isCold ← access a
  return ⟨(← attempt (World.accountOrEmpty a)).balance, isCold⟩

/-- The code of an account. -/
def code (a : Address) : HostM (Machine ι) (Loaded Code) := do
  let isCold ← access a
  return ⟨← attempt (World.codeOf a), isCold⟩

/-- The code hash of an account, zero if it is empty or not there. -/
def codeHash (a : Address) : HostM (Machine ι) (Loaded Hash) := do
  let isCold ← access a
  match ← attempt (World.account a) with
  | some record => return ⟨if record.isEmpty then 0 else record.codeHash, isCold⟩
  | none => return ⟨0, isCold⟩

/-! ## Storage -/

/-- The value of a slot. -/
def loadSlot (a : Address) (index : Word) : HostM (Machine ι) (Loaded Word) := do
  let isCold ← accessSlot ⟨a, index⟩
  return ⟨← attempt (World.slot a index), isCold⟩

/-- Sets a slot. -/
def storeSlot (a : Address) (index value : Word) : HostM (Machine ι) (Loaded Gas.SlotWrite) := do
  let isCold ← accessSlot ⟨a, index⟩
  let present ← attempt (World.slot a index)
  let initial ← attempt (World.flushedSlot a index)
  attempt (World.setSlot a index value)
  return ⟨{ initial, present, new := value }, isCold⟩

/-- The value of a slot of transient storage. -/
def loadTransient (a : Address) (index : Word) : StateM (Machine ι) Word := do
  return (← get).context.journal.tload ⟨a, index⟩

/-- Sets a slot of transient storage. -/
def storeTransient (a : Address) (index value : Word) : StateM (Machine ι) Unit :=
  modify fun m => { m with
    context := { m.context with journal := m.context.journal.tstore ⟨a, index⟩ value } }

/-! ## Logs and destruction -/

/-- Collects a log entry. -/
def log (inspector : Inspector ι) (entry : Log) : StateM (Machine ι) Unit := do
  inspect (inspector.log entry)
  modify fun m => { m with substate := { m.substate with logs := m.substate.logs.push entry } }

/-- Whether a destruction would bring no account into existence. -/
def countsAsExisting (features : Features) : Option Account → Bool
  | some record => !features.has .eip161 || !record.isEmpty
  | none => false

/-- Moves the balance of an account to the beneficiary. If they are the same, the balance is lost
when the account is deleted and kept otherwise. -/
def sweep [Ledger] (a beneficiary : Address) (record target : Account) (deletes : Bool) :
    WorldM Unit := do
  if a ≠ beneficiary then
    let balance ← Ledger.deposit target.balance record.balance
    World.putAccount beneficiary { target with balance }
    World.putAccount a { record with balance := 0 }
  else World.putAccount a (if deletes then { record with balance := 0 } else record)

/-- Destroys an account in favour of a beneficiary. Where that is so ruled, it is deleted only if it
was created in the same transaction. -/
def selfDestruct [Ledger] (inspector : Inspector ι) (a beneficiary : Address) :
    HostM (Machine ι) (Loaded Gas.Destruction) := do
  let features := (← get).features
  let isCold ← access beneficiary
  let target? ← attempt (World.account beneficiary)
  let record ← attempt (World.accountOrEmpty a)
  let substate := (← get).substate
  let deletes := !features.has .eip6780 || substate.created.contains a
  attempt (sweep a beneficiary record (target?.getD {}) deletes)
  modify fun m => { m with
    context := { m.context with journal := (m.context.journal.touch a).touch beneficiary }
    substate := if deletes then { substate with destroyed := substate.destroyed.insert a }
      else substate }
  liftM (m := StateM (Machine ι)) (inspect (inspector.selfDestruct a beneficiary record.balance))
  return ⟨{ hadValue := record.balance != 0,
            targetExists := countsAsExisting features target?,
            previouslyDestroyed := substate.destroyed.contains a }, isCold⟩

/-! ## Calls and creations -/

/-- Runs a message of the running frame and collects what its frame added. A failure is parked. -/
def runChild (run : Message → MachineM StateError ι FrameResult) (message : Message) :
    StateM (Machine ι) FrameResult := fun m =>
  match (run message).run m with
  | (.ok result, m) => (result, { m with substate := m.substate.merge result })
  | (.error e, m) => ({ outcome := .halt .fatal message.gasLimit }, m.park e)

/-- The message with the sets of the running frame. -/
def handDown (m : Machine ι) (message : Message) : Message :=
  { message with destroyed := m.substate.destroyed, created := m.substate.created }

/-- Runs a call, unless the inspector answers it. -/
def call (inspector : Inspector ι) (run : Message → MachineM StateError ι FrameResult)
    (request : CallRequest) : StateM (Machine ι) CallResponse := do
  match ← inspect (inspector.call request) with
  | (_, some response) => return response
  | (request, none) =>
    let m ← get
    let result ← runChild run (m.handDown (Message.ofCall request (m.depth + 1)))
    inspect (inspector.callEnd request ⟨result.outcome, request.out⟩)

/-- Runs a creation, unless the inspector answers it. -/
def create (inspector : Inspector ι) (run : Message → MachineM StateError ι FrameResult)
    (request : CreateRequest) : StateM (Machine ι) CreateResponse := do
  match ← inspect (inspector.create request) with
  | (_, some response) => return response
  | (request, none) =>
    let m ← get
    let result ← runChild run (m.handDown (Message.ofCreate request (m.depth + 1)))
    inspect (inspector.createEnd request ⟨result.outcome, result.address?⟩)

/-- The machine as a host. -/
def host [Ledger] (inspector : Inspector ι) (run : Message → MachineM StateError ι FrameResult) :
    Host (Machine ι) where
  env m := m.context.env
  beforeStep f := inspect (inspector.beforeStep f)
  afterStep f := inspect (inspector.afterStep f)
  presence := presence
  balance := balance
  code := code
  codeHash := codeHash
  loadSlot := loadSlot
  storeSlot := storeSlot
  loadTransient := loadTransient
  storeTransient := storeTransient
  log := log inspector
  selfDestruct := selfDestruct inspector
  call := call inspector run
  create := create inspector run

end Evm.Machine
