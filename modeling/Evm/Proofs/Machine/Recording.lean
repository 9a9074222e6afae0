import Evm.Machine.Transaction
import Evm.Proofs.Machine.Continues
import Evm.Proofs.Machine.Termination

/-!
# Putting failed reads on record

To say what becomes of a read of the world that fails, one has to see it. Beside the machine stands
one that does the same on record: its observer is told of every instruction that begins and of every
read that fails (`Recorded.read`). Each function of the machine that reads is written down once more
with all its reads on record, and proved to do what the original does (`Records`): so the machine on
record may be looked at instead of the machine. The same relation carries what is to be shown, that
a program in which a read has failed ends with its failure. Here are the operations on the world;
frames, messages and transactions follow in `Failures`.
-/

namespace Evm

/-! ## Records -/

/-- A read of the world. -/
inductive Read where
  | account (a : Address)
  | slot (a : Address) (index : Word)
  | flushedSlot (a : Address) (index : Word)
  | code (hash : Hash)
  | incarnation (a : Address)
  | flushedIncarnation (a : Address)
  deriving DecidableEq

namespace Read

/-- What a read gives. -/
abbrev Answer : Read → Type
  | account _ => Option Account
  | slot .. | flushedSlot .. => Word
  | code _ => Code
  | incarnation _ => UInt64
  | flushedIncarnation _ => Option UInt64

/-- The read as an operation on the world. -/
def op : (r : Read) → WorldM r.Answer
  | account a => World.account a
  | slot a index => World.slot a index
  | flushedSlot a index => World.flushedSlot a index
  | code hash => World.codeOfHash hash
  | incarnation a => World.incarnation a
  | flushedIncarnation a => Table.incarnations.loadClean a

end Read

/-- What is put on record: a frame that is about to run an instruction, and a read that fails. -/
inductive Incident where
  | began (f : Frame)
  | failed (r : Read) (e : StateError)

/-- A record, the latest incident first. -/
abbrev Record := List Incident

namespace Record

/-- No read has failed. -/
def Clean (record : Record) : Prop := ∀ r e, .failed r e ∉ record

/-- The failure of a read is the latest incident, and no read had failed before. -/
def EndsWith (record : Record) (e : StateError) : Prop :=
  ∃ r, ∃ earlier : Record, record = .failed r e :: earlier ∧ earlier.Clean

variable {ε α β : Type} {raise : StateError → ε} {record : Record}

/-- What a program ended with tells whether a read has failed in it. -/
def Tells (record : Record) (raise : StateError → ε) (r : Except ε α) : Prop :=
  record.Clean ∨ ∃ e, record.EndsWith e ∧ r = .error (raise e)

lemma clean_nil : Clean [] := fun _ _ => List.not_mem_nil

lemma Clean.began {f : Frame} (h : record.Clean) : Clean (.began f :: record) := fun r e hmem =>
  (List.mem_cons.1 hmem).elim nofun (h r e)

lemma Tells.clean {a : α} (h : record.Tells raise (.ok a)) : record.Clean :=
  h.elim id fun ⟨_, _, hresult⟩ => nomatch hresult

lemma Tells.error {e : ε} (h : record.Tells raise (.error e : Except ε α)) :
    record.Tells raise (.error e : Except ε β) :=
  h.imp_right fun ⟨e', hrecord, hresult⟩ => ⟨e', hrecord, Except.error.inj hresult ▸ rfl⟩

end Record

/-- The inspector that puts the instructions on record. -/
def Inspector.recorder : Inspector Record where
  beforeStep f := do
    modify fun (c, record) => (c, .began f :: record)
    return f

namespace Machine

variable {ε α β : Type}

/-! ## Programs on record -/

lemma onContext_bind {ι : Type} (p : ContextM ε α) (k : α → ContextM ε β) :
    (onContext (p >>= k) : MachineM ε ι β) = onContext p >>= fun a => onContext (k a) := by
  funext m
  change (fun x : Except ε β × Context => (x.1, { m with context := x.2 }))
    ((p >>= k).run m.context) = (onContext p >>= fun a => onContext (k a)).run m
  have hp : (onContext p : MachineM ε ι α).run m =
    ((p.run m.context).1, { m with context := (p.run m.context).2 }) := rfl
  rw [Program.run_bind, Program.run_bind, hp]
  rcases p.run m.context with ⟨_ | _, _⟩ <;> rfl

lemma onWorld_bind {ι : Type} (p : WorldM α) (k : α → WorldM β) :
    (onWorld (p >>= k) : MachineM StateError ι β) = onWorld p >>= fun a => onWorld (k a) := by
  funext m
  change (fun x : Except StateError β × World =>
      (x.1, { m with context := { m.context with world := x.2 } }))
    ((p >>= k).run m.context.world) = (onWorld p >>= fun a => onWorld (k a)).run m
  have hp : (onWorld p : MachineM StateError ι α).run m = ((p.run m.context.world).1,
    { m with context := { m.context with world := (p.run m.context.world).2 } }) := rfl
  rw [Program.run_bind, Program.run_bind, hp]
  rcases p.run m.context.world with ⟨_ | _, _⟩ <;> rfl

namespace Recorded

variable {raise : StateError → ε}

/-- From that machine, with that record, the second program does what the first one does, and what
it ends with tells whether a read has failed. -/
def RecordsAt (m : Machine Unit) (record : Record) (raise : StateError → ε)
    (p : MachineM ε Unit α) (q : MachineM ε Record α) : Prop :=
  ∃ record', q.run (m.observedBy record) = ((p.run m).1, (p.run m).2.observedBy record') ∧
    (record.Clean → record'.Tells raise (p.run m).1)

/-- The second program does what the first one does, and what it ends with tells whether a read has
failed. -/
def Records (raise : StateError → ε) (p : MachineM ε Unit α) (q : MachineM ε Record α) : Prop :=
  ∀ m record, RecordsAt m record raise p q

namespace Records

variable {p p' : MachineM ε Unit α} {q q' : MachineM ε Record α} {k : α → MachineM ε Unit β}
  {l : α → MachineM ε Record β}

lemma pure (a : α) : Records raise (Pure.pure a) (Pure.pure a) :=
  fun _ record => ⟨record, rfl, .inl⟩

lemma throw (e : ε) : Records raise (MonadExcept.throw e : MachineM ε Unit α)
    (MonadExcept.throw e) :=
  fun _ record => ⟨record, rfl, .inl⟩

lemma onContext (op : ContextM ε α) : Records raise (onContext op) (onContext op) :=
  fun _ record => ⟨record, rfl, .inl⟩

lemma onJournal (f : Journal → Journal) :
    Records raise (onJournal f : MachineM ε Unit Unit) (onJournal f) :=
  fun _ record => ⟨record, rfl, .inl⟩

lemma report (e : Event) : Records raise (report e : MachineM ε Unit Unit) (report e) :=
  fun _ record => ⟨record, rfl, .inl⟩

lemma bind (hp : Records raise p q) (hk : ∀ a, Records raise (k a) (l a)) :
    Records raise (p >>= k) (q >>= l) := by
  intro m record
  obtain ⟨record', hrun, htells⟩ := hp m record
  unfold RecordsAt
  rw [Program.run_bind, Program.run_bind, hrun]
  rcases hr : p.run m with ⟨e | a, m'⟩ <;> rw [hr] at htells
  · exact ⟨record', rfl, fun hclean => (htells hclean).error⟩
  · obtain ⟨record'', hrun', htells'⟩ := hk a m' record'
    exact ⟨record'', hrun', fun hclean => htells' (htells hclean).clean⟩

/-- The record cannot be looked at. -/
lemma get_bind {k : Machine Unit → MachineM ε Unit β} {l : Machine Record → MachineM ε Record β}
    (h : ∀ m record, Records raise (k m) (l (m.observedBy record))) :
    Records raise (get >>= k) (get >>= l) :=
  fun m record => h m record m record

lemma ite {c : Prop} [Decidable c] (hp : Records raise p q) (hp' : Records raise p' q') :
    Records raise (if c then p else p') (if c then q else q') := by
  split
  · exact hp
  · exact hp'

/-- A checkpoint around a program has no part in this. -/
lemma guarded {ofCache : CacheError → ε} {keep : α → Bool} (hp : Records raise p q) :
    Records raise (guarded ofCache keep p) (guarded ofCache keep q) := by
  intro m record
  obtain ⟨record', hrun, htells⟩ := hp m.opened record
  change ∃ record'', Machine.guarded ofCache keep q (m.observedBy record) =
      ((Machine.guarded ofCache keep p m).1,
        (Machine.guarded ofCache keep p m).2.observedBy record'') ∧
    (record.Clean → record''.Tells raise (Machine.guarded ofCache keep p m).1)
  refine ⟨record', ?_⟩
  rcases hr : p.run m.opened with ⟨r, m'⟩
  rw [hr] at hrun htells
  change p.run { m with context := m.context.checkpoint } = _ at hr
  change q.run { m.observedBy record with
    context := (m.observedBy record).context.checkpoint } = _ at hrun
  unfold Machine.guarded
  rw [hr, hrun]
  cases r with
  | error e => exact ⟨rfl, htells⟩
  | ok a =>
    dsimp only
    cases keep a with
    | false => exact ⟨rfl, htells⟩
    | true =>
      -- A commit that fails is no failed read.
      have hclean (h : record.Clean) := (htells h).clean
      have hcontext : (m'.observedBy record').context = m'.context := rfl
      rw [hcontext]
      rcases Context.commit.run m'.context with ⟨_ | _, context⟩
      · exact ⟨rfl, fun h => .inl (hclean h)⟩
      · exact ⟨rfl, fun h => .inl (hclean h)⟩

lemma context_bind {p : ContextM ε α} {q : MachineM ε Record α} {k : α → ContextM ε β}
    {l : α → MachineM ε Record β} (hp : Records raise (Machine.onContext p) q)
    (hk : ∀ a, Records raise (Machine.onContext (k a)) (l a)) :
    Records raise (Machine.onContext (p >>= k)) (q >>= l) := by
  rw [onContext_bind]
  exact .bind hp hk

lemma context_get_bind {k : Context → ContextM ε β}
    {l : Machine Record → MachineM ε Record β}
    (h : ∀ (m : Machine Unit) (record : Record),
      Records raise (Machine.onContext (k m.context)) (l (m.observedBy record))) :
    Records raise (Machine.onContext (get >>= k)) (get >>= l) :=
  fun m record => h m record m record

lemma context_ite {c : Prop} [Decidable c] {p p' : ContextM ε α}
    {q q' : MachineM ε Record α} (hp : Records raise (Machine.onContext p) q)
    (hp' : Records raise (Machine.onContext p') q') :
    Records raise (Machine.onContext (if c then p else p')) (if c then q else q') := by
  split
  · exact hp
  · exact hp'

/-- An operation on the world, read by read. -/
lemma world_bind {p : WorldM α} {q : MachineM StateError Record α} {k : α → WorldM β}
    {l : α → MachineM StateError Record β} (hp : Records id (onWorld p) q)
    (hk : ∀ a, Records id (onWorld (k a)) (l a)) : Records id (onWorld (p >>= k)) (q >>= l) := by
  rw [onWorld_bind]
  exact .bind hp hk

lemma world_ite {c : Prop} [Decidable c] {p p' : WorldM α}
    {q q' : MachineM StateError Record α} (hp : Records id (onWorld p) q)
    (hp' : Records id (onWorld p') q') :
    Records id (onWorld (if c then p else p')) (if c then q else q') := by
  split
  · exact hp
  · exact hp'

end Records

/-! ## Operations on the world -/

/-- Makes a read. Its failure is put on record. -/
def read (r : Read) : MachineM StateError Record r.Answer := fun m =>
  match (onWorld r.op).run m with
  | (.ok answer, m) => (.ok answer, m)
  | (.error e, m) => (.error e, { m with observer := .failed r e :: m.observer })

lemma records_read (r : Read) : Records id (onWorld r.op) (read r) := by
  intro m record
  have hrun : (onWorld r.op).run (m.observedBy record) = (((onWorld r.op).run m).1,
    ((onWorld r.op).run m).2.observedBy record) := rfl
  change ∃ record', read r (m.observedBy record) = _ ∧ _
  unfold read
  rw [hrun]
  rcases (onWorld r.op : MachineM StateError Unit _).run m with ⟨e | answer, m'⟩
  · exact ⟨.failed r e :: record, rfl, fun hclean => .inr ⟨e, ⟨r, record, rfl, hclean⟩, rfl⟩⟩
  · exact ⟨record, rfl, .inl⟩

/-- The record of an account, that of an empty one if there is none. -/
def accountOrEmpty (a : Address) : MachineM StateError Record Account := do
  return (← read (.account a)).getD {}

lemma records_accountOrEmpty (a : Address) :
    Records id (onWorld (World.accountOrEmpty a)) (accountOrEmpty a) :=
  .world_bind (records_read (.account a)) fun _ => .pure _

/-- Whether there is a record of the account. -/
def exists? (a : Address) : MachineM StateError Record Bool := do
  return (← read (.account a)).isSome

lemma records_exists? (a : Address) : Records id (onWorld (World.exists? a)) (exists? a) :=
  .world_bind (records_read (.account a)) fun _ => .pure _

/-- The code of an account. -/
def codeOf (a : Address) : MachineM StateError Record Code := do
  match ← read (.account a) with
  | some record => read (.code record.codeHash)
  | none => return Code.empty

lemma records_codeOf (a : Address) : Records id (onWorld (World.codeOf a)) (codeOf a) := by
  refine .world_bind (records_read (.account a)) fun record? => ?_
  cases record? with
  | none => exact .pure _
  | some record => exact records_read (.code record.codeHash)

/-- Sets the value of a slot of an incarnation. -/
def writeSlot (key : SlotKey) (value : Word) : WorldM Unit :=
  if value = 0 then Table.storage.del key else Table.storage.put key value

/-- Sets the value of a slot. -/
def setSlot (a : Address) (index value : Word) : MachineM StateError Record Unit := do
  let incarnation ← read (.incarnation a)
  onWorld (writeSlot ⟨a, incarnation, index⟩ value)

lemma records_setSlot (a : Address) (index value : Word) :
    Records id (onWorld (World.setSlot a index value)) (setSlot a index value) :=
  .world_bind (records_read (.incarnation a)) fun _ => .onContext _

/-- Deletes an account of an incarnation. -/
def endIncarnation (a : Address) (incarnation : UInt64) : WorldM Unit := do
  Table.accounts.del a
  Table.incarnations.put a (incarnation + 1)

/-- Deletes an account together with its storage. -/
def deleteAccount (a : Address) : MachineM StateError Record Unit := do
  let incarnation ← read (.incarnation a)
  onWorld (endIncarnation a incarnation)

lemma records_deleteAccount (a : Address) :
    Records id (onWorld (World.deleteAccount a)) (deleteAccount a) :=
  .world_bind (records_read (.incarnation a)) fun _ => .onContext _

/-- Deletes some accounts. -/
def deleteAccounts : List Address → MachineM StateError Record Unit
  | [] => return
  | a :: rest => do
    deleteAccount a
    deleteAccounts rest

lemma records_deleteAccounts (accounts : List Address) :
    Records id (onWorld (accounts.forM World.deleteAccount)) (deleteAccounts accounts) := by
  induction accounts with
  | nil => exact .pure _
  | cons a rest ih => exact .world_bind (records_deleteAccount a) fun _ => ih

/-- Deletes those of some accounts that are there and empty, and gives their addresses. -/
def deleteEmpty : List Address → MachineM StateError Record (List Address)
  | [] => return []
  | a :: rest => do
    match ← read (.account a) with
    | some record =>
      if record.isEmpty then
        deleteAccount a
        return a :: (← deleteEmpty rest)
      else deleteEmpty rest
    | none => deleteEmpty rest

lemma records_deleteEmpty (accounts : List Address) :
    Records id (onWorld (Context.deleteEmpty accounts)) (deleteEmpty accounts) := by
  induction accounts with
  | nil => exact .pure _
  | cons a rest ih =>
    refine .world_bind (records_read (.account a)) fun record? => ?_
    cases record? with
    | none => exact ih
    | some record =>
      exact .world_ite (.world_bind (records_deleteAccount a) fun _ =>
        .world_bind ih fun _ => .pure _) ih

/-- Puts the code of a new contract in place. -/
def install (a : Address) (output : Bytes) : MachineM StateError Record Unit := do
  let code := Code.ofBytes output
  onWorld (World.putCode code)
  let record ← accountOrEmpty a
  onWorld (World.putAccount a { record with codeHash := code.hash })

lemma records_install (a : Address) (output : Bytes) :
    Records id (onWorld (Machine.install a output)) (install a output) :=
  .world_bind (.onContext _) fun _ => .world_bind (records_accountOrEmpty a) fun _ => .onContext _

section

variable [Ledger]

/-- Moves value between accounts. -/
def moveValue (features : Features) (sender receiver : Address) (value : Word) :
    MachineM StateError Record Unit := do
  if value = 0 then
    if !features.has .eip161 then
      if !(← exists? receiver) then onWorld (World.putAccount receiver {})
  else
    let giving ← accountOrEmpty sender
    let balance ← onWorld (Ledger.withdraw giving.balance value)
    onWorld (World.putAccount sender { giving with balance })
    let taking ← accountOrEmpty receiver
    let balance ← onWorld (Ledger.deposit taking.balance value)
    onWorld (World.putAccount receiver { taking with balance })

lemma records_moveValue (features : Features) (sender receiver : Address) (value : Word) :
    Records id (onWorld (Machine.moveValue features sender receiver value))
      (moveValue features sender receiver value) :=
  .world_ite
    (.world_ite (.world_bind (records_exists? receiver) fun _ =>
      .world_ite (.onContext _) (.pure _)) (.pure _))
    (.world_bind (records_accountOrEmpty sender) fun _ => .world_bind (.onContext _) fun _ =>
      .world_bind (.onContext _) fun _ => .world_bind (records_accountOrEmpty receiver) fun _ =>
        .world_bind (.onContext _) fun _ => .onContext _)

/-- Adds to the balance of an account. -/
def credit (a : Address) (value : Word) : MachineM StateError Record Unit := do
  let record ← accountOrEmpty a
  let balance ← onWorld (Ledger.deposit record.balance value)
  onWorld (World.putAccount a { record with balance })

lemma records_credit (a : Address) (value : Word) :
    Records id (onWorld (Settlement.credit a value)) (credit a value) :=
  .world_bind (records_accountOrEmpty a) fun _ => .world_bind (.onContext _) fun _ => .onContext _

end

/-! ## Flushing -/

/-- Of some accounts with their latest incarnations, those whose incarnation in the store is lower,
with the latter. -/
def superseded : List (Address × UInt64) → MachineM StateError Record (List (Address × UInt64))
  | [] => return []
  | (a, latest) :: rest => do
    let flushed := (← read (.flushedIncarnation a)).getD 0
    let others ← superseded rest
    return if flushed < latest then (a, flushed) :: others else others

lemma records_superseded (latest : List (Address × UInt64)) :
    Records id (onWorld (World.superseded latest)) (superseded latest) := by
  induction latest with
  | nil => exact .pure _
  | cons entry rest ih =>
    exact .world_bind (records_read (.flushedIncarnation entry.1)) fun _ =>
      .world_bind ih fun _ => .pure _

/-- Takes the pending writes of all caches, once it is known which incarnations are over. -/
def takePending (latest : Std.ExtTreeMap Address (Option UInt64))
    (pruned : List (Address × UInt64)) : WorldM Pending := do
  let code ← Table.code.drain
  let incarnations ← Table.incarnations.drain
  let accounts ← Table.accounts.drain
  let slots ← Table.storage.drain
  return {
    code := code.filterMap fun (h, c) => c.map fun c => (h, c.bytes)
    incarnations := incarnations.map fun (a, n) => (a, n.getD 0)
    accounts
    slots := slots.filter fun (key, _) => !World.isOver latest key
    pruned }

/-- Takes the pending writes of all caches. -/
def prepareFlush : MachineM StateError Record Pending := do
  let w := (← get).context.world
  if 0 < w.depth then throw (.cache (.openCheckpoints w.depth))
  else
    let latest := w.incarnations.dirty
    let pruned ← superseded (latest.toList.map fun (a, n) => (a, n.getD 0))
    onWorld (takePending latest pruned)

lemma records_prepareFlush : Records id (onWorld World.prepareFlush) prepareFlush := by
  intro m record
  refine Records.world_ite (c := 0 < m.context.world.depth) (.throw _) ?_ m record
  exact .world_bind (records_superseded _) fun _ => .onContext _

end Recorded

end Machine

end Evm
