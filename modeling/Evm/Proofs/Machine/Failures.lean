import Evm.Proofs.Execution.Congruence
import Evm.Proofs.Execution.Upholding
import Evm.Proofs.Machine.Recording
import Evm.Proofs.Machine.Transaction
import Evm.Proofs.Machine.Watching

/-!
# Failed reads

A read that fails in an instruction is parked and halts the frame; it comes out at the end of the
frame, is parked again by the frame around it, and so on to the outermost one. A read that fails
outside of instructions fails what it was made for. Here the machine on record is taken through
instructions, frames, messages and transactions. As long as a frame runs, no read has failed
(`upholds_clean`), so no instruction begins once one has; and every run in which a read fails ends
with the failure of that read (`failures_surface`).
-/

namespace Evm.Machine.Recorded

variable {α β : Type}

/-! ## The machine as a host -/

/-- No read has failed, or the failure of the latest is parked. -/
def Parks (m : Machine Record) : Prop :=
  m.observer.Clean ∨ ∃ e, m.observer.EndsWith e ∧ m.parked? = some e

/-- Runs an operation; a failure is parked. -/
def attempt {α : Type} (op : MachineM StateError Record α) : HostM (Machine Record) α := fun m =>
  match op.run m with
  | (.ok a, m) => (some a, m)
  | (.error e, m) => (none, m.park e)

/-- The second operation does what the first one does. Where it has an answer, no read has failed,
and otherwise the failure is parked. -/
def Answers (op : HostM (Machine Unit) α) (op' : HostM (Machine Record) α) : Prop :=
  ∀ m record, ∃ record', op'.run (m.observedBy record) =
      ((op.run m).1, (op.run m).2.observedBy record') ∧
    (record.Clean → if (op.run m).1.isSome then record'.Clean
      else Parks ((op.run m).2.observedBy record'))

/-- The machine with some record. -/
def OnRecord (m : Machine Unit) (m' : Machine Record) : Prop :=
  ∃ record, m' = m.observedBy record

namespace Answers

variable {op : HostM (Machine Unit) α} {op' : HostM (Machine Record) α}
  {k : α → HostM (Machine Unit) β} {l : α → HostM (Machine Record) β}

/-- An operation that makes no read and always has an answer. -/
lemma of_run {answer : Machine Unit → α} {next : Machine Unit → Machine Unit}
    (h : ∀ m, op.run m = (some (answer m), next m))
    (h' : ∀ m record,
      op'.run (m.observedBy record) = (some (answer m), (next m).observedBy record)) :
    Answers op op' := by
  intro m record
  rw [h, h']
  exact ⟨record, rfl, id⟩

lemma pure (a : α) : Answers (Pure.pure a) (Pure.pure a) := fun _ record => ⟨record, rfl, id⟩

lemma bind (hop : Answers op op') (hk : ∀ a, Answers (k a) (l a)) :
    Answers (op >>= k) (op' >>= l) := by
  intro m record
  obtain ⟨record', hrun, hparks⟩ := hop m record
  rw [HostM.run_bind, HostM.run_bind, hrun]
  rcases hr : op.run m with ⟨_ | a, m'⟩ <;> rw [hr] at hparks
  · exact ⟨record', rfl, hparks⟩
  · obtain ⟨record'', hrun', hparks'⟩ := hk a m' record'
    exact ⟨record'', hrun', fun hclean => hparks' (hparks hclean)⟩

/-- The record cannot be looked at. -/
lemma get_bind {k : Machine Unit → HostM (Machine Unit) β}
    {l : Machine Record → HostM (Machine Record) β}
    (h : ∀ m record, Answers (k m) (l (m.observedBy record))) : Answers (get >>= k) (get >>= l) :=
  fun m record => h m record m record

/-- A program that is attempted parks its failure. -/
lemma attempt {op : WorldM α} {q : MachineM StateError Record α}
    (h : Records id (onWorld op) q) : Answers (Machine.attempt op) (Recorded.attempt q) := by
  intro m record
  obtain ⟨record', hrun, htells⟩ := h m record
  change ∃ record'', Recorded.attempt q (m.observedBy record) =
      ((Machine.attempt op m).1, (Machine.attempt op m).2.observedBy record'') ∧
    (record.Clean → if (Machine.attempt op m).1.isSome then record''.Clean
      else Parks ((Machine.attempt op m).2.observedBy record''))
  unfold Recorded.attempt Machine.attempt
  rw [hrun]
  rcases hr : (onWorld op : MachineM StateError Unit α).run m with ⟨e | a, m'⟩ <;> rw [hr] at htells
  · refine ⟨record', rfl, fun hclean => (htells hclean).imp_right ?_⟩
    rintro ⟨e', hends, hresult⟩
    exact ⟨e', hends, congrArg some (Except.error.inj hresult)⟩
  · exact ⟨record', rfl, fun hclean => (htells hclean).clean⟩

lemma alike {op : HostM (Machine Unit) α} {op' : HostM (Machine Record) α}
    (h : Answers op op') : HostM.Alike OnRecord op op' := by
  rintro m _ ⟨record, rfl⟩
  obtain ⟨record', hrun, -⟩ := h m record
  rw [hrun]
  exact ⟨rfl, record', rfl⟩

lemma answered {op : HostM (Machine Unit) α} {op' : HostM (Machine Record) α}
    (h : Answers op op') (f : Frame) {m : Machine Record} (hm : m.observer.Clean) :
    Host.Answered (fun x => x.2.observer.Clean) (fun x => Parks x.2) f (op'.run m) := by
  obtain ⟨record', hrun, hparks⟩ := h (m.observedBy ()) m.observer
  have hends := hparks hm
  change op'.run m = _ at hrun
  rw [hrun]
  rcases hr : op.run (m.observedBy ()) with ⟨_ | answer, m'⟩ <;> rw [hr] at hends <;> exact hends

end Answers

lemma answers_access (a : Address) : Answers (access a) (access a) :=
  .of_run (fun _ => rfl) fun _ _ => rfl

lemma answers_accessSlot (s : Slot) : Answers (accessSlot s) (accessSlot s) :=
  .of_run (fun _ => rfl) fun _ _ => rfl

/-- Whether there is an account, and whether it is empty. -/
def presence (a : Address) : HostM (Machine Record) (Loaded AccountPresence) := do
  let isCold ← access a
  let record? ← attempt (read (.account a))
  return ⟨⟨record?.isSome, record?.all Account.isEmpty⟩, isCold⟩

lemma answers_presence (a : Address) : Answers (Machine.presence a) (presence a) :=
  .bind (answers_access a) fun _ => .bind (.attempt (records_read (.account a))) fun _ => .pure _

/-- The balance of an account. -/
def balance (a : Address) : HostM (Machine Record) (Loaded Word) := do
  let isCold ← access a
  return ⟨(← attempt (accountOrEmpty a)).balance, isCold⟩

lemma answers_balance (a : Address) : Answers (Machine.balance a) (balance a) :=
  .bind (answers_access a) fun _ => .bind (.attempt (records_accountOrEmpty a)) fun _ => .pure _

/-- The code of an account. -/
def code (a : Address) : HostM (Machine Record) (Loaded Code) := do
  let isCold ← access a
  return ⟨← attempt (codeOf a), isCold⟩

lemma answers_code (a : Address) : Answers (Machine.code a) (code a) :=
  .bind (answers_access a) fun _ => .bind (.attempt (records_codeOf a)) fun _ => .pure _

/-- The code hash of an account, zero if it is empty or not there. -/
def codeHash (a : Address) : HostM (Machine Record) (Loaded Hash) := do
  let isCold ← access a
  match ← attempt (read (.account a)) with
  | some record => return ⟨if record.isEmpty then 0 else record.codeHash, isCold⟩
  | none => return ⟨0, isCold⟩

lemma answers_codeHash (a : Address) : Answers (Machine.codeHash a) (codeHash a) := by
  refine .bind (answers_access a) fun _ => .bind (.attempt (records_read (.account a))) ?_
  rintro (_ | _)
  · exact .pure _
  · exact .pure _

/-- The value of a slot. -/
def loadSlot (a : Address) (index : Word) : HostM (Machine Record) (Loaded Word) := do
  let isCold ← accessSlot ⟨a, index⟩
  return ⟨← attempt (read (.slot a index)), isCold⟩

lemma answers_loadSlot (a : Address) (index : Word) :
    Answers (Machine.loadSlot a index) (loadSlot a index) :=
  .bind (answers_accessSlot _) fun _ => .bind (.attempt (records_read (.slot a index))) fun _ =>
    .pure _

/-- Sets a slot. -/
def storeSlot (a : Address) (index value : Word) :
    HostM (Machine Record) (Loaded Gas.SlotWrite) := do
  let isCold ← accessSlot ⟨a, index⟩
  let present ← attempt (read (.slot a index))
  let initial ← attempt (read (.flushedSlot a index))
  attempt (setSlot a index value)
  return ⟨{ initial, present, new := value }, isCold⟩

lemma answers_storeSlot (a : Address) (index value : Word) :
    Answers (Machine.storeSlot a index value) (storeSlot a index value) :=
  .bind (answers_accessSlot _) fun _ => .bind (.attempt (records_read (.slot a index))) fun _ =>
    .bind (.attempt (records_read (.flushedSlot a index))) fun _ =>
      .bind (.attempt (records_setSlot a index value)) fun _ => .pure _

/-- Destroys an account in favour of a beneficiary. -/
def selfDestruct [Ledger] (a beneficiary : Address) :
    HostM (Machine Record) (Loaded Gas.Destruction) := do
  let features := (← get).features
  let isCold ← access beneficiary
  let target? ← attempt (read (.account beneficiary))
  let record ← attempt (accountOrEmpty a)
  let substate := (← get).substate
  let deletes := !features.has .eip6780 || substate.created.contains a
  attempt (onWorld (sweep a beneficiary record (target?.getD {}) deletes))
  modify fun m => { m with
    context := { m.context with journal := (m.context.journal.touch a).touch beneficiary }
    substate := if deletes then { substate with destroyed := substate.destroyed.insert a }
      else substate }
  liftM (m := StateM (Machine Record))
    (inspect (Inspector.recorder.selfDestruct a beneficiary record.balance))
  return ⟨{ hadValue := record.balance != 0,
            targetExists := countsAsExisting features target?,
            previouslyDestroyed := substate.destroyed.contains a }, isCold⟩

lemma answers_selfDestruct [Ledger] (a beneficiary : Address) :
    Answers (Machine.selfDestruct .silent a beneficiary) (selfDestruct a beneficiary) := by
  refine .get_bind fun _ _ => .bind (answers_access beneficiary) fun _ =>
    .bind (.attempt (records_read (.account beneficiary))) fun _ =>
      .bind (.attempt (records_accountOrEmpty a)) fun _ => .get_bind fun _ _ =>
        .bind (.attempt (.onContext _)) fun _ => .bind ?_ fun _ => .bind ?_ fun _ => .pure _
  · exact .of_run (fun _ => rfl) fun _ _ => rfl
  · exact .of_run (fun _ => rfl) fun _ _ => rfl

/-! ## Before and after code is run -/

section

/-- Whether the sender holds less than the value that moves. -/
def lacksFunds (message : Message) : MachineM StateError Record Bool := do
  if message.movesValue then
    return (← accountOrEmpty message.caller).balance < message.value
  else return false

lemma records_lacksFunds (message : Message) :
    Records id (Machine.lacksFunds message) (lacksFunds message) :=
  .ite (.bind (records_accountOrEmpty _) fun _ => .pure _) (.pure _)

/-- The code that a call runs. -/
def calledCode (message : Message) : MachineM StateError Record Code := do
  match message.code? with
  | some code => return code
  | none => codeOf message.codeAddress

lemma records_calledCode (message : Message) :
    Records id (Machine.calledCode message) (calledCode message) := by
  unfold Machine.calledCode calledCode
  cases message.code? with
  | none => exact records_codeOf _
  | some code => exact .pure code

lemma records_runPrecompile (p : Precompile) (message : Message) :
    Records id (runPrecompile p message) (runPrecompile p message) := by
  refine .get_bind fun m record => ?_
  have hfeatures : (m.observedBy record).features = m.features := rfl
  rw [hfeatures]
  dsimp only
  cases p.run m.features message.data message.gasLimit with
  | error e => exact .bind (.report _) fun _ => .pure _
  | ok output => exact .pure _

/-- Deploys what the init code gave back. -/
def deploy (a : Address) (o : Outcome) : MachineM StateError Record FrameResult := do
  let m ← get
  let o := deployment m.features m.context.env.config.codeLimit o
  if o.isOk then
    install a o.output
    return { outcome := o, address? := some a }
  else return { outcome := o }

lemma records_deploy (a : Address) (o : Outcome) :
    Records id (Machine.deploy a o) (deploy a o) :=
  .get_bind fun _ _ => .ite (.bind (records_install _ _) fun _ => .pure _) (.pure _)

/-- Whether a contract is in the way of a new one. -/
def isTaken (a : Address) : MachineM StateError Record Bool := do
  match ← read (.account a) with
  | some record => return record.nonce != 0 || record.hasCode
  | none => return false

lemma records_isTaken (a : Address) : Records id (Machine.isTaken a) (isTaken a) := by
  refine .bind (records_read (.account a)) ?_
  rintro (_ | record)
  · exact .pure _
  · exact .pure _

variable [Ledger]

/-- Moves value and touches the receiver. -/
def transfer (sender receiver : Address) (value : Word) : MachineM StateError Record Unit := do
  onJournal (·.touch receiver)
  moveValue (← get).features sender receiver value

lemma records_transfer (sender receiver : Address) (value : Word) :
    Records id (Machine.transfer sender receiver value) (transfer sender receiver value) :=
  .bind (.onJournal _) fun _ => .get_bind fun _ _ => records_moveValue _ _ _ _

/-- Brings the account of a new contract into existence and moves the value to it. -/
def prepareAccount (message : Message) (a : Address) : MachineM StateError Record Unit := do
  let record ← accountOrEmpty a
  let nonce := if (← get).features.has .eip161 then 1 else record.nonce
  onWorld (World.putAccount a { record with nonce })
  transfer message.caller a message.value
  modify fun m => { m with substate := { m.substate with created := m.substate.created.insert a } }

lemma records_prepareAccount (message : Message) (a : Address) :
    Records id (Machine.prepareAccount message a) (prepareAccount message a) :=
  .bind (records_accountOrEmpty a) fun _ => .get_bind fun _ _ => .bind (.onContext _) fun _ =>
    .bind (records_transfer _ _ _) fun _ => fun _ record => ⟨record, rfl, .inl⟩

end

/-! ## Calls and creations -/

/-- A frame below has come to that. If a read has failed in it, it has ended in the one way that
halts the frame above as well. -/
def Comes (o : Outcome) (m : Machine Record) : Prop :=
  m.observer.Clean ∨ o.status = .fatal ∧ Parks m

lemma Comes.returned {o : Outcome} {m : Machine Record} (h : Comes o m) (f : Frame) :
    Host.Returned (fun x => x.2.observer.Clean) (fun x => Parks x.2) f o m := by
  obtain hclean | ⟨hfatal, hparks⟩ := h
  · exact ⟨.inl hclean, fun _ => hclean, fun _ _ => hclean⟩
  · refine ⟨hparks, fun hok => ?_, fun _ hfailed => ?_⟩
    · rw [hfatal] at hok
      cases hok
    · rw [hfatal] at hfailed
      cases hfailed

section

variable {run : Message → MachineM StateError Unit FrameResult}
  {run' : Message → MachineM StateError Record FrameResult}

lemma comes_runChild {message : Message} (hrun : Records id (run message) (run' message))
    (m : Machine Unit) (record : Record) :
    ∃ record', runChild run' message (m.observedBy record) =
        ((runChild run message m).1, (runChild run message m).2.observedBy record') ∧
      (record.Clean → Comes (runChild run message m).1.outcome
        ((runChild run message m).2.observedBy record')) := by
  obtain ⟨record', hrun', htells⟩ := hrun m record
  refine ⟨record', ?_⟩
  unfold runChild
  rw [hrun']
  rcases hr : (run message).run m with ⟨e | result, m'⟩ <;> rw [hr] at htells
  · refine ⟨rfl, fun hclean => (htells hclean).imp_right ?_⟩
    rintro ⟨e', hends, hresult⟩
    exact ⟨rfl, .inr ⟨e', hends, congrArg some (Except.error.inj hresult)⟩⟩
  · exact ⟨rfl, fun hclean => .inl (htells hclean).clean⟩

variable (hrun : ∀ message, Records id (run message) (run' message))

include hrun

lemma comes_call (request : CallRequest) (m : Machine Unit) (record : Record) :
    ∃ record', call .recorder run' request (m.observedBy record) =
        ((call .silent run request m).1, (call .silent run request m).2.observedBy record') ∧
      (record.Clean → Comes (call .silent run request m).1.outcome
        ((call .silent run request m).2.observedBy record')) := by
  obtain ⟨record', hchild, hcomes⟩ :=
    comes_runChild (hrun (m.handDown (.ofCall request (m.depth + 1)))) m record
  refine ⟨record', ?_, hcomes⟩
  change (fun x : FrameResult × Machine Record => (CallResponse.mk x.1.outcome request.out, x.2))
    (runChild run' (m.handDown (.ofCall request (m.depth + 1))) (m.observedBy record)) = _
  rw [hchild]
  rfl

lemma comes_create (request : CreateRequest) (m : Machine Unit) (record : Record) :
    ∃ record', create .recorder run' request (m.observedBy record) =
        ((create .silent run request m).1, (create .silent run request m).2.observedBy record') ∧
      (record.Clean → Comes (create .silent run request m).1.outcome
        ((create .silent run request m).2.observedBy record')) := by
  obtain ⟨record', hchild, hcomes⟩ :=
    comes_runChild (hrun (m.handDown (.ofCreate request (m.depth + 1)))) m record
  refine ⟨record', ?_, hcomes⟩
  change (fun x : FrameResult × Machine Record => (CreateResponse.mk x.1.outcome x.1.address?, x.2))
    (runChild run' (m.handDown (.ofCreate request (m.depth + 1))) (m.observedBy record)) = _
  rw [hchild]
  rfl

/-! ## Running code -/

variable [Ledger]

/-- The machine as a host. Calls and creations are made as ever, of messages that are run on record.
-/
def host (run : Message → MachineM StateError Record FrameResult) : Host (Machine Record) :=
  { Machine.host .recorder run with
    presence := presence
    balance := balance
    code := code
    codeHash := codeHash
    loadSlot := loadSlot
    storeSlot := storeSlot
    selfDestruct := selfDestruct }

/-- As hosts of a frame the two machines cannot be told apart. -/
lemma alike_host : (Machine.host .silent run).Alike OnRecord (host run') where
  env := by
    rintro m _ ⟨record, rfl⟩
    rfl
  beforeStep f := by
    rintro m _ ⟨record, rfl⟩
    exact ⟨rfl, .began f :: record, rfl⟩
  afterStep f := by
    rintro m _ ⟨record, rfl⟩
    exact ⟨rfl, record, rfl⟩
  presence a := (answers_presence a).alike
  balance a := (answers_balance a).alike
  code a := (answers_code a).alike
  codeHash a := (answers_codeHash a).alike
  loadSlot a index := (answers_loadSlot a index).alike
  storeSlot a index value := (answers_storeSlot a index value).alike
  loadTransient a index := by
    rintro m _ ⟨record, rfl⟩
    exact ⟨rfl, record, rfl⟩
  storeTransient a index value := by
    rintro m _ ⟨record, rfl⟩
    exact ⟨rfl, record, rfl⟩
  log entry := by
    rintro m _ ⟨record, rfl⟩
    exact ⟨rfl, record, rfl⟩
  selfDestruct a beneficiary := (answers_selfDestruct a beneficiary).alike
  call request := by
    rintro m _ ⟨record, rfl⟩
    obtain ⟨record', hcall, -⟩ := comes_call hrun request m record
    exact ⟨congrArg Prod.fst hcall.symm, record', congrArg Prod.snd hcall⟩
  create request := by
    rintro m _ ⟨record, rfl⟩
    obtain ⟨record', hcreate, -⟩ := comes_create hrun request m record
    exact ⟨congrArg Prod.fst hcreate.symm, record', congrArg Prod.snd hcreate⟩

/-- While a frame runs, no read has failed. -/
lemma upholds_clean :
    (host run').Upholds (fun x => x.2.observer.Clean) (fun x => Parks x.2) where
  abort h := .inl h
  stays _ h := h
  staysAborted _ h := h
  presence a h := (answers_presence a).answered _ h
  balance a h := (answers_balance a).answered _ h
  code a h := (answers_code a).answered _ h
  codeHash a h := (answers_codeHash a).answered _ h
  loadSlot a index h := (answers_loadSlot a index).answered _ h
  storeSlot {f m} a index value h := by
    have hanswered : Host.Answered (fun x => x.2.observer.Clean) (fun x => Parks x.2) f
        (((host run').storeSlot a index value).run m) :=
      (answers_storeSlot a index value).answered f h
    rcases hr : ((host run').storeSlot a index value).run m with ⟨_ | write, m'⟩ <;>
      rw [hr] at hanswered
    · exact hanswered
    · exact ⟨.inl hanswered, hanswered⟩
  loadTransient _ _ h := h
  storeTransient _ _ _ h := h
  log _ h := h
  selfDestruct a beneficiary h := (answers_selfDestruct a beneficiary).answered _ h
  create {f m} request h := by
    obtain ⟨record', hcreate, hcomes⟩ := comes_create hrun request (m.observedBy ()) m.observer
    change create .recorder run' request m = _ at hcreate
    change Host.Returned _ _ f (create .recorder run' request m).1.outcome
      (create .recorder run' request m).2
    rw [hcreate]
    exact (hcomes h).returned f
  call {f m} request h := by
    obtain ⟨record', hcall, hcomes⟩ := comes_call hrun request (m.observedBy ()) m.observer
    change call .recorder run' request m = _ at hcall
    change Host.Returned _ _ f (call .recorder run' request m).1.outcome
      (call .recorder run' request m).2
    rw [hcall]
    exact (hcomes h).returned f

/-- Runs a frame to its end. -/
def runFrame (run : Message → MachineM StateError Record FrameResult)
    (f : Frame) : MachineM StateError Record Outcome :=
  runFrameOn .recorder (host run) f

/-- A frame that has met a failure ends with it. -/
lemma records_runFrame (f : Frame) :
    Records id (Machine.runFrame .silent run f) (runFrame run' f) := by
  intro m record
  obtain ⟨hframe, record', hmachine⟩ := (alike_host hrun).run f m _ ⟨record, rfl⟩
  have hparks (hclean : record.Clean) : Parks ((host run').run f (m.observedBy record)).2 :=
    ((upholds_clean hrun).run (fun _ _ _ _ h => h) ⟨.began, fun _ _ => rfl, id, id⟩ hclean).1
  change ∃ record'', unparked ((host run').run f (m.observedBy record)) =
      ((unparked ((Machine.host .silent run).run f m)).1,
        (unparked ((Machine.host .silent run).run f m)).2.observedBy record'') ∧
    (record.Clean → record''.Tells id (unparked ((Machine.host .silent run).run f m)).1)
  refine ⟨record', ?_⟩
  rcases hr : (Machine.host .silent run).run f m with ⟨f', m'⟩
  rcases hr' : (host run').run f (m.observedBy record) with ⟨_, n⟩
  rw [hr, hr'] at hframe hmachine
  rw [hr'] at hparks
  obtain rfl : f' = _ := hframe
  obtain rfl : n = m'.observedBy record' := hmachine
  have hparked : (m'.observedBy record').parked? = m'.parked? := rfl
  unfold unparked
  dsimp only
  rw [hparked]
  rcases hm : m'.parked? with _ | e
  · refine ⟨rfl, fun hclean => (hparks hclean).imp_right ?_⟩
    rintro ⟨e', -, he'⟩
    cases hm.symm.trans he'
  · refine ⟨rfl, fun hclean => (hparks hclean).imp_right ?_⟩
    rintro ⟨e', hends, he'⟩
    obtain rfl : e = e' := Option.some.inj (hm.symm.trans he')
    exact ⟨e, hends, rfl⟩

/-! ## Frames -/

/-- Runs the precompiled contract or the code that a call is for. -/
def runCalled (run : Message → MachineM StateError Record FrameResult)
    (message : Message) (target : Address) : MachineM StateError Record FrameResult := do
  let features := (← get).features
  match Precompile.at? features message.codeAddress with
  | some p => runPrecompile p message
  | none =>
    let code ← calledCode message
    if code.isEmpty then return { outcome := .idle .stop message.gasLimit }
    else
      let invocation := message.invocation target code features
      return { outcome := ← runFrame run (Frame.start invocation message.gasLimit) }

lemma records_runCalled (message : Message) (target : Address) :
    Records id (Machine.runCalled .silent run message target) (runCalled run' message target) := by
  refine .get_bind fun m record => ?_
  have hfeatures : (m.observedBy record).features = m.features := rfl
  dsimp only
  rw [hfeatures]
  cases Precompile.at? m.features message.codeAddress with
  | some p => exact records_runPrecompile p message
  | none =>
    exact .bind (records_calledCode message) fun _ =>
      .ite (.pure _) (.bind (records_runFrame hrun _) fun _ => .pure _)

/-- What a call does in its checkpoint. -/
def callBody (run : Message → MachineM StateError Record FrameResult)
    (message : Message) (target : Address) : MachineM StateError Record FrameResult := do
  if !message.isDelegate then transfer message.caller target message.value
  runCalled run message target

lemma records_callBody (message : Message) (target : Address) :
    Records id (Machine.callBody .silent run message target) (callBody run' message target) :=
  .ite (.bind (records_transfer _ _ _) fun _ => records_runCalled hrun message target)
    (records_runCalled hrun message target)

/-- The frame of a call. -/
def callFrame (run : Message → MachineM StateError Record FrameResult)
    (message : Message) (target : Address) : MachineM StateError Record FrameResult := do
  if callDepthLimit < message.depth then
    return { outcome := .idle .callTooDeep message.gasLimit }
  else if ← lacksFunds message then
    return { outcome := .idle .outOfFunds message.gasLimit }
  else
    guarded .cache FrameResult.isOk (callBody run message target)

/-- Runs init code and deploys the contract. -/
def construct (run : Message → MachineM StateError Record FrameResult)
    (message : Message) (a : Address) : MachineM StateError Record FrameResult := do
  if ← isTaken a then
    report (.createCollision a)
    return { outcome := .halt .createCollision message.gasLimit }
  else
    prepareAccount message a
    let invocation := message.initInvocation a (← get).features
    let outcome ← runFrame run (Frame.start invocation message.gasLimit)
    if outcome.isOk then deploy a outcome else return { outcome }

lemma records_construct (message : Message) (a : Address) :
    Records id (Machine.construct .silent run message a) (construct run' message a) :=
  .bind (records_isTaken a) fun _ => .ite (.bind (.report _) fun _ => .pure _) <|
    .bind (records_prepareAccount message a) fun _ => .get_bind fun _ _ =>
      .bind (records_runFrame hrun _) fun _ => .ite (records_deploy a _) (.pure _)

/-- The frame of a creation. -/
def createFrame (run : Message → MachineM StateError Record FrameResult)
    (message : Message) : MachineM StateError Record FrameResult := do
  if callDepthLimit < message.depth then
    return { outcome := .idle .callTooDeep message.gasLimit }
  else
    let creator ← accountOrEmpty message.caller
    if creator.balance < message.value then
      return { outcome := .idle .outOfFunds message.gasLimit }
    else if creator.nonce = UInt64.ofNat Count.max then
      return { outcome := .idle .nonceOverflow message.gasLimit }
    else
      onWorld (World.putAccount message.caller { creator with nonce := creator.nonce + 1 })
      let a := message.newAddress creator.nonce
      onJournal fun j => (j.access a).2
      guarded .cache FrameResult.isOk (construct run message a)

/-- The frame of a message. -/
def frame (run : Message → MachineM StateError Record FrameResult)
    (message : Message) : MachineM StateError Record FrameResult :=
  match message.to? with
  | some target => callFrame run message target
  | none => createFrame run message

lemma records_frame (message : Message) :
    Records id (Machine.frame .silent run message) (frame run' message) := by
  unfold Machine.frame frame
  cases message.to? with
  | some target =>
    exact .ite (.pure _) <| .bind (records_lacksFunds message) fun _ =>
      .ite (.pure _) (.guarded (records_callBody hrun message target))
  | none =>
    exact .ite (.pure _) <| .bind (records_accountOrEmpty _) fun _ => .ite (.pure _) <|
      .ite (.pure _) <| .bind (.onContext _) fun _ => .bind (.onJournal _) fun _ =>
        .guarded (records_construct hrun message _)

/-! ## Messages -/

lemma records_executeWith (message : Message) :
    Records id (executeWith .silent run message) (executeBy (frame run') message) := by
  intro m record
  obtain ⟨record', hframe, htells⟩ := records_frame hrun message (m.entered message) record
  unfold RecordsAt
  rw [executeWith_run, executeBy_run]
  have hentered : (m.observedBy record).entered message =
      (m.entered message).observedBy record := rfl
  rw [hentered, hframe]
  rcases hr : (Machine.frame .silent run message).run (m.entered message) with ⟨e | result, m'⟩ <;>
    rw [hr] at htells
  · exact ⟨record', rfl, htells⟩
  · exact ⟨record', rfl, fun hclean => .inl (htells hclean).clean⟩

end

section

variable [Ledger]

/-- Runs a message with at most `levels` levels of messages below it. -/
def executeWithin : Nat → Message → MachineM StateError Record FrameResult
  | 0, message =>
    executeBy
      (frame fun message => return { outcome := .idle .callTooDeep message.gasLimit }) message
  | levels + 1, message => executeBy (frame (executeWithin levels)) message

lemma records_executeWithin (levels : Nat) (message : Message) :
    Records id (Machine.executeWithin .silent levels message) (executeWithin levels message) := by
  induction levels generalizing message with
  | zero => exact records_executeWith (fun _ => .pure _) message
  | succ levels ih => exact records_executeWith ih message

/-- Runs a message. -/
def execute (message : Message) : MachineM StateError Record FrameResult :=
  executeWithin (callDepthLimit + 1 - message.depth) message

/-- A message that is run on record ends as it does anyway, and with the failure of a read if one
has failed in it or in the messages below. -/
theorem records_execute (message : Message) :
    Records id (Machine.execute .silent message) (execute message) :=
  records_executeWithin _ message

/-! ## Transactions -/

omit [Ledger] in
lemma Records.onState {p : MachineM StateError Unit α} {q : MachineM StateError Record α}
    (h : Records id p q) : Records Failure.state (onState p) (onState q) := by
  intro m record
  obtain ⟨record', hrun, htells⟩ := h m record
  change ∃ record'', Machine.onState q (m.observedBy record) =
      ((Machine.onState p m).1, (Machine.onState p m).2.observedBy record'') ∧
    (record.Clean → record''.Tells Failure.state (Machine.onState p m).1)
  refine ⟨record', ?_⟩
  unfold Machine.onState
  rw [hrun]
  refine ⟨rfl, fun hclean => (htells hclean).imp_right ?_⟩
  rintro ⟨e, hends, hresult⟩
  exact ⟨e, hends, congrArg (Except.mapError Failure.state) hresult⟩

/-- Runs a message. No fee is paid and nothing is written to the store. -/
def runMessage (message : Message) : MachineM Failure Record FrameResult := fun m =>
  let (r, m) := (onState (execute message)).run m
  (r, m.clearParked)

lemma records_runMessage (message : Message) :
    Records Failure.state (Machine.runMessage .silent message) (runMessage message) := by
  intro m record
  obtain ⟨record', hrun, htells⟩ := (records_execute message).onState m record
  have hrecorded : (runMessage message).run (m.observedBy record) =
      (((onState (execute message)).run (m.observedBy record)).1,
        ((onState (execute message)).run (m.observedBy record)).2.clearParked) := rfl
  unfold RecordsAt
  rw [hrecorded, hrun]
  exact ⟨record', rfl, htells⟩

/-- Runs code as that of an account. Its effects are kept if it succeeds. -/
def runCode (a : Address) (code : Bytes) (gasLimit : Nat) :
    MachineM Failure Record FrameResult := fun m =>
  let f := Frame.start (codeInvocation m.context.env a code) gasLimit
  let (r, after) := (onState (guarded .cache Outcome.isOk (runFrame execute f))).run
    { m with substate := {} }
  (r.map (codeResult after.substate), { after with substate := m.substate, parked? := none })

lemma records_runCode (a : Address) (code : Bytes) (gasLimit : Nat) :
    Records Failure.state (Machine.runCode .silent a code gasLimit) (runCode a code gasLimit) := by
  intro m record
  have hreal := runCode_run (i := .silent) a code gasLimit m
  have hrecorded : (runCode a code gasLimit).run (m.observedBy record) =
      let f := Frame.start (codeInvocation m.context.env a code) gasLimit
      let (r, after) := (onState (guarded .cache Outcome.isOk (runFrame execute f))).run
        (({ m with substate := {} } : Machine Unit).observedBy record)
      (r.map (codeResult after.substate), { after with substate := m.substate, parked? := none }) :=
    rfl
  dsimp only at hreal hrecorded
  generalize Frame.start (codeInvocation m.context.env a code) gasLimit = f at hreal hrecorded
  have hframe : Records id
      (guarded .cache Outcome.isOk (Machine.runFrame .silent (Machine.execute .silent) f))
      (guarded .cache Outcome.isOk (runFrame execute f)) :=
    .guarded (records_runFrame records_execute f)
  obtain ⟨record', hrun, htells⟩ := hframe.onState { m with substate := {} } record
  unfold RecordsAt
  rcases hr : (onState (guarded .cache Outcome.isOk
      (Machine.runFrame .silent (Machine.execute .silent) f))).run { m with substate := {} }
    with ⟨e | outcome, after⟩ <;> rw [hr] at hreal hrun htells <;> rw [hrecorded, hrun, hreal]
  · exact ⟨record', rfl, fun hclean => (htells hclean).error⟩
  · exact ⟨record', rfl, fun hclean => .inl (htells hclean).clean⟩

omit [Ledger] in
lemma records_require (check : Except InvalidTransaction α) :
    Records Failure.state (require check) (require check) := by
  cases check with
  | error e => exact .throw _
  | ok a => exact .pure a

/-- Has the sender pay for the gas. -/
def chargeSender : MachineM StateError Record Unit := do
  let env := (← get).context.env
  let caller := env.transaction.caller
  let sender ← accountOrEmpty caller
  let balance ← onWorld (Ledger.withdraw (Settlement.funds env sender) (Settlement.gasCost env))
  let nonce := Settlement.chargedNonce env sender
  onWorld (World.putAccount caller { sender with balance, nonce })
  onJournal (·.touch caller)

lemma records_chargeSender :
    Records id (onContext Settlement.chargeSender) chargeSender :=
  .context_get_bind fun _ _ => .context_bind (records_accountOrEmpty _) fun _ =>
    .context_bind (.onContext _) fun _ => .context_bind (.onContext _) fun _ =>
      fun _ record => ⟨record, rfl, .inl⟩

/-- Pays the sender back for the gas that was not used. -/
def reimburse (gas : Gas.Meter) : MachineM StateError Record Unit := do
  let env := (← get).context.env
  let value := Word.satMul env.gasPrice (BitVec.ofNat 256 gas.returned)
  credit env.transaction.caller value

lemma records_reimburse (gas : Gas.Meter) :
    Records id (onContext (Settlement.reimburse gas)) (reimburse gas) :=
  .context_get_bind fun _ _ => records_credit _ _

/-- Pays the beneficiary. -/
def reward (gas : Gas.Meter) : MachineM StateError Record Unit := do
  let env := (← get).context.env
  let value := Word.satMul (Settlement.beneficiaryPrice env) (BitVec.ofNat 256 gas.used)
  credit env.block.beneficiary value
  onJournal (·.touch env.block.beneficiary)

lemma records_reward (gas : Gas.Meter) :
    Records id (onContext (Settlement.reward gas)) (reward gas) :=
  .context_get_bind fun _ _ => .context_bind (records_credit _ _) fun _ =>
    fun _ record => ⟨record, rfl, .inl⟩

/-- Deletes the touched accounts that are empty, in ascending order. -/
def cleanup : MachineM StateError Record (List Address) := do
  let c := (← get).context
  if c.features.has .eip161 then
    let deleted ← deleteEmpty c.journal.touchedList
    if !deleted.isEmpty then report (.cleaned deleted.length)
    return deleted
  else return []

omit [Ledger] in
lemma records_cleanup : Records id (onContext Context.cleanup) cleanup :=
  .context_get_bind fun _ _ => .context_ite
    (.context_bind (records_deleteEmpty _) fun _ => .context_ite
      (.context_bind (fun _ record => ⟨record, rfl, .inl⟩) fun _ => .pure _) (.pure _)) (.pure _)

/-- Writes everything pending to the store. -/
def flush : MachineM StateError Record Changeset := do
  let pending ← prepareFlush
  report (.flushing pending.ops.length)
  onWorld (World.writeBatch pending.ops)
  return pending.changes

omit [Ledger] in
lemma records_flush : Records id (onContext Context.flush) flush :=
  .context_bind records_prepareFlush fun _ =>
    .context_bind (fun _ record => ⟨record, rfl, .inl⟩) fun _ =>
      .context_bind (.onContext _) fun _ => .pure _

/-- Runs the message of a transaction and settles it, all its effects being still pending. -/
def settle (intrinsicGas : Nat) :
    MachineM Failure Record (FrameResult × Gas.Meter × List Address) := do
  let env := (← get).context.env
  let tx := env.transaction
  let sender ← onState (accountOrEmpty tx.caller)
  require (env.checkSender sender)
  onJournal (Settlement.warmUp env ((Precompile.active env.features).map Precompile.address))
  onState chargeSender
  let frame ← onState (execute (Message.ofTransaction tx (tx.gasLimit - intrinsicGas)))
  let gas := Gas.Meter.ofTransaction env.features tx.gasLimit frame.outcome
  onState (reimburse gas)
  onState (reward gas)
  onState (deleteAccounts frame.destroyed.toList)
  let cleaned ← onState cleanup
  return (frame, gas, cleaned)

lemma records_settle (intrinsicGas : Nat) :
    Records Failure.state (Machine.settle .silent intrinsicGas) (settle intrinsicGas) :=
  .get_bind fun _ _ => .bind (.onState (records_accountOrEmpty _)) fun _ =>
    .bind (records_require _) fun _ => .bind (.onJournal _) fun _ =>
      .bind (.onState records_chargeSender) fun _ => .bind (.onState (records_execute _)) fun _ =>
        .bind (.onState (records_reimburse _)) fun _ => .bind (.onState (records_reward _)) fun _ =>
          .bind (.onState (records_deleteAccounts _)) fun _ =>
            .bind (.onState records_cleanup) fun _ => .pure _

/-- Checks the transaction of the environment, runs it and writes its effects to the store. -/
def runTransaction : MachineM Failure Record Receipt := do
  let env := (← get).context.env
  require env.checkBlock
  let intrinsicGas ← require env.checkIntrinsicGas
  let (frame, gas, cleaned) ←
    guarded (.state ∘ .cache) (fun _ => true) (settle intrinsicGas)
  let changes ← onState flush
  let result := ExecutionResult.ofFrame frame gas env.transaction.isCreate
  report (.transactionExecuted result.isSuccess result.gasUsed)
  return { result, changes, destroyed := frame.destroyed, created := frame.created, cleaned }

lemma records_runTransaction :
    Records Failure.state (Machine.runTransaction .silent) runTransaction :=
  .get_bind fun _ _ => .bind (records_require _) fun _ => .bind (records_require _) fun _ =>
    .bind (.guarded (records_settle _)) fun _ => .bind (.onState records_flush) fun _ =>
      .bind (.report _) fun _ => .pure _

/-- Runs a transaction. -/
def transact (tx : Transaction) : MachineM Failure Record Receipt := fun m =>
  finished (runTransaction.run (m.withTransaction tx))

lemma records_transact (tx : Transaction) :
    Records Failure.state (Machine.transact .silent tx) (transact tx) := by
  intro m record
  obtain ⟨record', hrun, htells⟩ := records_runTransaction (m.withTransaction tx) record
  have hrecorded : (transact tx).run (m.observedBy record) =
      finished (runTransaction.run ((m.withTransaction tx).observedBy record)) := rfl
  unfold RecordsAt
  rw [hrecorded, transact_run, hrun]
  rcases hr : (Machine.runTransaction .silent).run (m.withTransaction tx) with ⟨e | receipt, m'⟩ <;>
    rw [hr] at htells
  · exact ⟨record', rfl, htells⟩
  · exact ⟨record', rfl, fun hclean => .inl (htells hclean).clean⟩

end

/-! ## Failed reads -/

/-- The second program does on record what the first one does. If a read fails meanwhile, both end
with its failure; it is the only one, and no instruction has begun since. -/
def Surfaces (p : MachineM Failure Unit α) (q : MachineM Failure Record α) : Prop :=
  ∀ m : Machine Unit, ∃ record : Record,
    q.run (m.observedBy []) = ((p.run m).1, (p.run m).2.observedBy record) ∧
    ∀ r e, .failed r e ∈ record → (p.run m).1 = .error (.state e) ∧
      ∃ earlier : Record, record = .failed r e :: earlier ∧
        ∀ incident ∈ earlier, ∃ f, incident = .began f

lemma Records.surfaces {p : MachineM Failure Unit α} {q : MachineM Failure Record α}
    (h : Records Failure.state p q) : Surfaces p q := by
  intro m
  obtain ⟨record, hrun, htells⟩ := h m []
  refine ⟨record, hrun, fun r e hmem => ?_⟩
  obtain hclean | ⟨e', ⟨r', earlier, rfl, hearlier⟩, hresult⟩ := htells Record.clean_nil
  · exact absurd hmem (hclean r e)
  obtain heq | hmem := List.mem_cons.1 hmem
  · cases heq
    refine ⟨hresult, earlier, rfl, fun incident hincident => ?_⟩
    cases incident with
    | began f => exact ⟨f, rfl⟩
    | failed r e => exact absurd hincident (hearlier r e)
  · exact absurd hmem (hearlier r e)

/-- If a read fails, in the frame of a message or in any below it, or in what a transaction does
around its message, the run ends with the failure of that read; and once the read has failed, no
frame begins an instruction any more. -/
theorem failures_surface [Ledger] :
    (∀ tx, Surfaces (Machine.transact .silent tx) (transact tx)) ∧
    (∀ message, Surfaces (Machine.runMessage .silent message) (runMessage message)) ∧
    ∀ a code gasLimit,
      Surfaces (Machine.runCode .silent a code gasLimit) (runCode a code gasLimit) :=
  ⟨fun tx => (records_transact tx).surfaces, fun message => (records_runMessage message).surfaces,
    fun a code gasLimit => (records_runCode a code gasLimit).surfaces⟩

/-- A machine over a store in which the record of 0x300 does not decode. The code of 0x100 calls
that of 0x200, which asks for the balance of 0x300. -/
def corrupted : Machine Unit :=
  let calling := Code.ofHashed #[0x5f, 0x5f, 0x5f, 0x5f, 0x5f, 0x61, 0x02, 0x00, 0x5a, 0xf1, 0x50] 7
  let asking := Code.ofHashed #[0x61, 0x03, 0x00, 0x31, 0x50] 8
  let requests : List World.Request := [.putAccount 0x100 { codeHash := 7 },
    .putAccount 0x200 { codeHash := 8 }, .putCode calling, .putCode asking]
  let store : Store := { entries := .insert ∅ (StoreKey.account 0x300) #[0xff] }
  start (.ofWorld {} (World.serveAll requests (.ofStore store .ordered)).2) ()

/-- Whether that read has failed, right after so many instructions. -/
def failsAfter (r : Read) (instructions : Nat) : Record → Bool
  | .failed r' _ :: earlier => r == r' && earlier.length == instructions
  | _ => false

/-- What is left of the code of 0x200 and of that of 0x100 is not run. -/
theorem failures_surface_nested :
    let message := Message.call 1 0x100 0 #[] 50000
    ∃ e m record, (Machine.runMessage .silent message).run corrupted = (.error (.state e), m) ∧
      (runMessage message).run (corrupted.observedBy []) =
        (.error (.state e), m.observedBy record) ∧
      failsAfter (.account 0x300) 10 record = true := by
  intro message
  obtain ⟨record, hrun, hsurfaces⟩ := failures_surface.2.1 message corrupted
  have hfails : failsAfter (.account 0x300) 10
      ((runMessage message).run (corrupted.observedBy [])).2.observer = true := by decide +kernel
  rw [hrun] at hfails
  change failsAfter (.account 0x300) 10 record = true at hfails
  obtain ⟨r, e, hmem⟩ : ∃ r e, .failed r e ∈ record := by
    rcases record with _ | ⟨_ | ⟨r, e⟩, earlier⟩
    · cases hfails
    · cases hfails
    · exact ⟨r, e, List.mem_cons_self⟩
  have hresult := (hsurfaces r e hmem).1
  refine ⟨e, _, record, Prod.ext hresult rfl, ?_, hfails⟩
  rw [hrun, hresult]

end Evm.Machine.Recorded
