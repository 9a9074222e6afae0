import Evm.Machine.Transaction
import Evm.Proofs.Machine.Runs
import Evm.Proofs.State.Open

/-!
# Checkpoints in lockstep

An embedder opens and closes checkpoints of its own around what it has the machine do. All that the
machine does closes what it opens, so the four caches and the journal keep the same number of open
checkpoints, with one exception: a transaction ends with a new journal, and if the embedder holds a
checkpoint then, the caches still hold it and the journal does not.
-/

namespace Evm

/-! ## The end of a transaction -/

namespace World

variable {w₀ : World}

lemma keeps_deleteEmpty (accounts : List Address) :
    Keeps w₀.Continues (Context.deleteEmpty accounts) := by
  induction accounts with
  | nil => exact .pure _
  | cons a rest ih =>
    refine .bind (keeps_account a) fun record? => ?_
    cases record? with
    | none => exact ih
    | some record =>
      exact .ite (.bind (keeps_deleteAccount a) fun _ => .bind ih fun _ => .pure _) ih

lemma keeps_deleteAccounts (accounts : List Address) :
    Keeps w₀.Continues (accounts.forM deleteAccount) := by
  induction accounts with
  | nil => exact .pure _
  | cons a rest ih => exact .bind (keeps_deleteAccount a) fun _ => ih

lemma keeps_credit [Ledger] (a : Address) (value : Word) :
    Keeps w₀.Continues (Settlement.credit a value) :=
  .bind (keeps_accountOrEmpty a) fun _ => .bind (Machine.keeps_deposit _ _) fun _ =>
    keeps_putAccount _ _

end World

namespace Journal

/-- Going on from the open checkpoints leaves their number. -/
lemma Continues.depth {j j' : Journal} (h : j.Continues j') : j'.depth = j.depth := by
  rw [← length_saved, h.saved, length_saved]

variable {j : Journal} {n : Nat}

lemma exists_saved_of_depth (h : j.depth = n + 1) :
    ∃ latest below, j.saved = latest :: below ∧ below.length = n := by
  have hlength := (length_saved j).trans h
  cases hsaved : j.saved with
  | nil =>
    rw [hsaved] at hlength
    cases hlength
  | cons latest below =>
    rw [hsaved] at hlength
    exact ⟨latest, below, rfl, Nat.succ.inj hlength⟩

/-- An open checkpoint can be committed. -/
lemma commit?_of_depth (h : j.depth = n + 1) : ∃ j', j.commit? = some j' ∧ j'.depth = n := by
  obtain ⟨latest, below, hsaved, hlength⟩ := exists_saved_of_depth h
  obtain ⟨j', hrun, -, hbelow, -⟩ := commit?_of_saved hsaved
  exact ⟨j', hrun, by rw [← length_saved, hbelow, hlength]⟩

/-- An open checkpoint can be reverted. -/
lemma revert?_of_depth (h : j.depth = n + 1) : ∃ j', j.revert? = some j' ∧ j'.depth = n := by
  obtain ⟨latest, below, hsaved, hlength⟩ := exists_saved_of_depth h
  obtain ⟨j', hrun, -, hbelow, -⟩ := revert?_of_saved hsaved
  exact ⟨j', hrun, by rw [← length_saved, hbelow, hlength]⟩

/-- What is warm from the start of a transaction belongs to no checkpoint. -/
lemma depth_warmUp (env : Env) (precompiled : List Address) (j : Journal) :
    (Settlement.warmUp env precompiled j).depth = j.depth := by
  have haccounts (accounts : List Address) (j : Journal) :
      (accounts.foldl keepWarm j).depth = j.depth := by
    induction accounts generalizing j with
    | nil => rfl
    | cons a rest ih => exact ih (j.keepWarm a)
  have hslots (slots : List Slot) (j : Journal) :
      (slots.foldl keepWarmSlot j).depth = j.depth := by
    induction slots generalizing j with
    | nil => rfl
    | cons s rest ih => exact ih (j.keepWarmSlot s)
  exact (hslots _ _).trans (haccounts _ j)

end Journal

/-! ## Contexts -/

namespace Context

/-- All checkpoints opened in between are closed again, nothing was flushed, and reverting the
checkpoints of the world comes to the same. -/
structure Within (c c' : Context) : Prop where
  env : c'.env = c.env
  world : c.world.Continues c'.world
  journal : c'.journal.depth = c.journal.depth

variable {c₀ c c' c'' : Context} {n : Nat}

namespace Within

lemma refl (c : Context) : c.Within c := ⟨rfl, .refl _, rfl⟩

lemma trans (h : c.Within c') (h' : c'.Within c'') : c.Within c'' :=
  ⟨h'.env.trans h.env, h.world.trans h'.world, h'.journal.trans h.journal⟩

lemma of_continues (h : c.Continues c') : c.Within c' := ⟨h.env, h.world, h.journal.depth⟩

/-- Committing keeps the writes of the checkpoint. -/
lemma commit (h : c.checkpoint.Within c') :
    ∃ c'', commit.run c' = (.ok (), c'') ∧ c.Within c'' ∧ c'.world.SamePending c''.world := by
  obtain ⟨world, hw, hwc, hwp⟩ := h.world.commit
  obtain ⟨journal, hj, hdepth⟩ := Journal.commit?_of_depth h.journal
  exact ⟨_, commit_run hw hj, ⟨h.env, hwc, hdepth⟩, hwp⟩

/-- Abandoning gives up the writes of the checkpoint. -/
lemma abandon (h : c.checkpoint.Within c') :
    c.Within c'.abandon ∧ c.world.SamePending c'.abandon.world := by
  obtain ⟨world, hw, hwc, hwp⟩ := h.world.revert
  obtain ⟨journal, hj, hdepth⟩ := Journal.revert?_of_depth h.journal
  rw [Context.abandon, revert_run hw hj]
  exact ⟨⟨h.env, hwc, hdepth⟩, hwp⟩

end Within

lemma keeps_onWorld {α : Type} {op : WorldM α} (h : ∀ w₀ : World, Keeps w₀.Continues op) :
    Keeps c₀.Within (onWorld op) :=
  fun c hc => hc.trans ⟨rfl, h c.world _ (.refl _), rfl⟩

/-! ### Settlement -/

lemma keeps_touch (a : Address) :
    Keeps c₀.Within (modify fun c => { c with journal := c.journal.touch a } :
      ContextM StateError Unit) :=
  .modify fun c hc => hc.trans ⟨rfl, .refl _, (c.journal.continues_touch a).depth⟩

variable [Ledger]

lemma keeps_chargeSender : Keeps c₀.Within Settlement.chargeSender :=
  .bind .get fun _ => .bind (keeps_onWorld fun _ => World.keeps_accountOrEmpty _) fun _ =>
    .bind (keeps_onWorld fun _ => Machine.keeps_withdraw _ _) fun _ =>
      .bind (keeps_onWorld fun _ => World.keeps_putAccount _ _) fun _ => keeps_touch _

lemma keeps_reimburse (gas : Gas.Meter) : Keeps c₀.Within (Settlement.reimburse gas) :=
  .bind .get fun _ => keeps_onWorld fun _ => World.keeps_credit _ _

lemma keeps_reward (gas : Gas.Meter) : Keeps c₀.Within (Settlement.reward gas) :=
  .bind .get fun _ => .bind (keeps_onWorld fun _ => World.keeps_credit _ _) fun _ => keeps_touch _

omit [Ledger]

lemma keeps_deleteDestroyed (destroyed : AddressSet) :
    Keeps c₀.Within (Settlement.deleteDestroyed destroyed) :=
  keeps_onWorld fun _ => World.keeps_deleteAccounts _

lemma keeps_cleanup : Keeps c₀.Within cleanup := by
  refine .bind .get fun c => .ite ?_ (.pure _)
  refine .bind (keeps_onWorld fun _ => World.keeps_deleteEmpty _) fun deleted => ?_
  exact .ite (.bind (.modify fun c hc => hc.trans ⟨rfl, .refl _, rfl⟩) fun _ => .pure _) (.pure _)

end Context

/-! ## Machines -/

namespace Machine

variable {ι ε α : Type} {c₀ : Context}

/-- Since the context was `c₀`, the machine has closed all checkpoints that it opened. -/
def Within (c₀ : Context) (m : Machine ι) : Prop := c₀.Within m.context

lemma keeps_onContext {op : ContextM ε α} (h : Keeps c₀.Within op) :
    Keeps (Within c₀) (onContext op : MachineM ε ι α) :=
  fun m hm => h m.context hm

lemma onContext_run {op : ContextM ε α} {m : Machine ι} {r : Except ε α} {context : Context}
    (h : op.run m.context = (r, context)) :
    (onContext op : MachineM ε ι α).run m = (r, { m with context }) := by
  change ((op.run m.context).1, { m with context := (op.run m.context).2 }) = _
  rw [h]

lemma onState_run {op : MachineM StateError ι α} {m m' : Machine ι} {r : Except StateError α}
    (h : op.run m = (r, m')) : (onState op).run m = (r.mapError .state, m') := by
  change ((op.run m).1.mapError Failure.state, (op.run m).2) = _
  rw [h]

lemma keeps_onState {I : Machine ι → Prop} {op : MachineM StateError ι α} (h : Keeps I op) :
    Keeps I (onState op) :=
  h

lemma keeps_require {I : Machine ι → Prop} (check : Except InvalidTransaction α) :
    Keeps I (require check : MachineM Failure ι α) := by
  cases check with
  | error e => exact .throw _
  | ok a => exact .pure a

/-- What goes on from the open checkpoints closes what it opens. -/
lemma keeps_within {op : MachineM ε ι α} (h : ∀ m₀ : Machine ι, Keeps m₀.Continues op) :
    Keeps (Within c₀) op :=
  fun m hm => hm.trans (.of_continues (h m m (.refl m)).context)

/-- A guarded operation that closes what it opens has the result of what it guards, and keeps the
writes if the result is one to keep. -/
lemma guarded_within (ofCache : CacheError → ε) (keep : α → Bool) {body : MachineM ε ι α}
    {m m' : Machine ι} {r : Except ε α} (hrun : body.run m.opened = (r, m'))
    (h : m.context.checkpoint.Within m'.context) :
    ∃ m'', (guarded ofCache keep body).run m = (r, m'') ∧ m.context.Within m''.context ∧
      if isKept keep r then m'.context.world.SamePending m''.context.world
      else m.context.world.SamePending m''.context.world := by
  obtain ⟨hcontinues, hsame⟩ := h.abandon
  obtain ⟨committed, hcommit, hcontinues', hsame'⟩ := h.commit
  refine ⟨_, guarded_eq ofCache keep hrun hcommit, ?_⟩
  cases isKept keep r with
  | false => exact ⟨hcontinues, hsame⟩
  | true => exact ⟨hcontinues', hsame'⟩

lemma keeps_guarded_within {ofCache : CacheError → ε} {keep : α → Bool} {body : MachineM ε ι α}
    (h : ∀ c₀ : Context, Keeps (Within c₀) body) :
    Keeps (Within c₀) (guarded ofCache keep body) := by
  intro m hm
  obtain ⟨m', hrun, hwithin, -⟩ := guarded_within ofCache keep
    (Prod.mk.eta (p := body.run m.opened)).symm (h m.context.checkpoint m.opened (.refl _))
  rw [hrun]
  exact hm.trans hwithin

variable [Ledger]

/-- Settling a transaction closes what it opens. -/
lemma keeps_settle (intrinsicGas : Nat) : Keeps (Within c₀) (settle .silent intrinsicGas) := by
  refine .bind .get fun m => ?_
  refine .bind (keeps_onState (keeps_onContext (Context.keeps_onWorld fun _ =>
    World.keeps_accountOrEmpty _))) fun _ => ?_
  refine .bind (keeps_require _) fun _ => ?_
  refine .bind (.modify fun m hm => hm.trans ⟨rfl, .refl _, Journal.depth_warmUp _ _ _⟩) fun _ => ?_
  refine .bind (keeps_onState (keeps_onContext Context.keeps_chargeSender)) fun _ => ?_
  refine .bind (keeps_onState (keeps_within fun _ m hm => hm.trans (execute_continues _ m)))
    fun frame => ?_
  refine .bind (keeps_onState (keeps_onContext (Context.keeps_reimburse _))) fun _ => ?_
  refine .bind (keeps_onState (keeps_onContext (Context.keeps_reward _))) fun _ => ?_
  refine .bind (keeps_onState (keeps_onContext (Context.keeps_deleteDestroyed _))) fun _ => ?_
  exact .bind (keeps_onState (keeps_onContext Context.keeps_cleanup)) fun _ => .pure _

end Machine

/-! ## Lockstep -/

namespace Context

/-- The caches of the world and the journal have that number of open checkpoints. -/
structure Lockstep (n : Nat) (c : Context) : Prop where
  world : c.world.Open n
  journal : c.journal.depth = n

variable {c c' : Context} {n : Nat}

namespace Lockstep

lemma within (h : c.Lockstep n) (hc : c.Within c') : c'.Lockstep n :=
  ⟨h.world.continues hc.world, hc.journal.trans h.journal⟩

lemma checkpoint (h : c.Lockstep n) : c.checkpoint.Lockstep (n + 1) :=
  ⟨h.world.checkpoint, congrArg (· + 1) h.journal⟩

/-- An open checkpoint can be committed. -/
lemma commit (h : c.Lockstep (n + 1)) : ∃ c', commit.run c = (.ok (), c') ∧ c'.Lockstep n := by
  obtain ⟨world, hw, hworld⟩ := h.world.commit
  obtain ⟨journal, hj, hjournal⟩ := Journal.commit?_of_depth h.journal
  exact ⟨_, commit_run hw hj, hworld, hjournal⟩

/-- An open checkpoint can be reverted. -/
lemma revert (h : c.Lockstep (n + 1)) : ∃ c', revert.run c = (.ok (), c') ∧ c'.Lockstep n := by
  obtain ⟨world, hw, hworld⟩ := h.world.revert
  obtain ⟨journal, hj, hjournal⟩ := Journal.revert?_of_depth h.journal
  exact ⟨_, revert_run hw hj, hworld, hjournal⟩

end Lockstep

/-- Without a checkpoint nothing is committed. -/
lemma commit_of_closed (h : c.world.Closed) : commit.run c = (.error .noCheckpoint, c) := by
  change Context.commit c = _
  unfold Context.commit
  rw [World.commit_of_closed h]

/-- Without a checkpoint nothing is reverted. -/
lemma revert_of_closed (h : c.world.Closed) : revert.run c = (.error .noCheckpoint, c) := by
  change Context.revert c = _
  unfold Context.revert
  rw [World.revert_of_closed h]

/-- A flush opens and closes no checkpoint. -/
lemma keeps_flush : Keeps (Lockstep n) flush := by
  have honWorld {α : Type} {op : WorldM α} (h : Keeps (World.Open n) op) :
      Keeps (Lockstep n) (onWorld op) :=
    fun c hc => ⟨h c.world hc.world, hc.journal⟩
  refine .bind (honWorld World.keeps_prepareFlush) fun pending => ?_
  refine .bind (.modify fun _ hc => ⟨hc.world, hc.journal⟩) fun _ => ?_
  exact .bind (honWorld (World.keeps_writeBatch _)) fun _ => .pure _

/-- A flush is refused while there are open checkpoints. -/
lemma flush_of_open (h : c.world.Open (n + 1)) :
    flush.run c = (.error (.cache (.openCheckpoints (n + 1))), c) := by
  unfold flush
  rw [Program.run_bind_error (onWorld_run (World.prepareFlush_of_open h))]

end Context

namespace Machine

variable {ι ε α : Type} {n : Nat} {m : Machine ι}

/-- What closes what it opens leaves the number of open checkpoints. -/
lemma keeps_lockstep {op : MachineM ε ι α} (h : ∀ c₀ : Context, Keeps (Within c₀) op) :
    Keeps (fun m => m.context.Lockstep n) op :=
  fun m hm => hm.within (h m.context m (.refl _))

/-- Running a transaction leaves the number of open checkpoints until it is finished. -/
lemma keeps_runTransaction : Keeps (fun m => m.context.Lockstep n) (runTransaction .silent) := by
  refine .bind .get fun m => ?_
  refine .bind (keeps_require _) fun _ => .bind (keeps_require _) fun intrinsicGas => ?_
  refine .bind (keeps_lockstep fun c₀ => keeps_guarded_within fun c₀ => keeps_settle intrinsicGas) fun settled => ?_
  refine .bind (keeps_onState fun m hm => Context.keeps_flush m.context hm) fun _ => ?_
  exact .bind (fun _ hm => ⟨hm.world, hm.journal⟩) fun _ => .pure _

/-- Nothing is written to the store while there are open checkpoints. -/
lemma flush_of_open (h : m.context.world.Open (n + 1)) :
    (onState (onContext Context.flush) : MachineM Failure ι Changeset).run m =
      (.error (.state (.cache (.openCheckpoints (n + 1)))), m) :=
  onState_run (onContext_run (Context.flush_of_open h))

/-- A transaction of an embedder that holds a checkpoint fails, at the latest when it comes to be
written to the store. -/
lemma fails_runTransaction :
    Fails (fun m => m.context.Lockstep (n + 1)) (runTransaction .silent) := by
  refine .after .get fun m => ?_
  refine .after (keeps_require _) fun _ => .after (keeps_require _) fun intrinsicGas => ?_
  refine .after (keeps_lockstep fun c₀ => keeps_guarded_within fun c₀ => keeps_settle intrinsicGas)
    fun settled => .bind fun m hm => ?_
  exact ⟨_, congrArg Prod.fst (flush_of_open hm.world)⟩

variable {m : Machine Unit}

/-- A transaction leaves the number of open checkpoints of the world. The journal it leaves has
none, and with open checkpoints it fails. -/
lemma transact_lockstep (h : m.context.Lockstep n) (tx : Transaction) :
    ((transact .silent tx).run m).2.context.world.Open n ∧
      ((transact .silent tx).run m).2.context.journal.depth = 0 ∧
        (0 < n → ∃ e, ((transact .silent tx).run m).1 = .error e) := by
  let m₀ : Machine Unit :=
    { m with context := { m.context with env := { m.context.env with transaction := tx } } }
  have hm₀ : m₀.context.Lockstep n := ⟨h.world, h.journal⟩
  have hworld := (keeps_runTransaction m₀ hm₀).world
  have hfails : 0 < n → ∃ e, ((runTransaction .silent).run m₀).1 = .error e := by
    intro hn
    obtain ⟨k, rfl⟩ := Nat.exists_eq_succ_of_ne_zero hn.ne'
    exact fails_runTransaction m₀ hm₀
  change ((transact .silent tx) m).2.context.world.Open n ∧
    ((transact .silent tx) m).2.context.journal.depth = 0 ∧
      (0 < n → ∃ e, ((transact .silent tx) m).1 = .error e)
  unfold transact
  dsimp only
  rcases hrun : (runTransaction .silent).run m₀ with ⟨e | receipt, m₁⟩
  · rw [hrun] at hworld
    exact ⟨hworld, rfl, fun _ => ⟨e, rfl⟩⟩
  · rw [hrun] at hworld hfails
    refine ⟨hworld, rfl, fun hn => ?_⟩
    obtain ⟨e, he⟩ := hfails hn
    cases he

/-- Running code closes what it opens. -/
lemma runCode_within (a : Address) (code : Bytes) (gasLimit : Nat) :
    m.context.Within ((runCode .silent a code gasLimit).run m).2.context := by
  let f := Frame.start (codeInvocation m.context.env a code) gasLimit
  let body : MachineM StateError Unit Outcome :=
    guarded .cache Outcome.isOk (runFrame .silent (execute .silent) f)
  have hbody : Within m.context ((onState body).run { m with substate := {} }).2 :=
    keeps_within (fun _ => keeps_guarded fun _ => keeps_runFrame execute_continues f)
      { m with substate := {} } (.refl _)
  change m.context.Within ((runCode .silent a code gasLimit) m).2.context
  unfold runCode
  dsimp only
  rcases hrun : (onState body).run { m with substate := {} } with ⟨e | outcome, after⟩
  · rw [hrun] at hbody
    exact hbody
  · rw [hrun] at hbody
    dsimp only
    split
    · exact hbody
    · exact hbody

/-- A flush leaves the number of open checkpoints; one that succeeds starts a new journal, but only
if there are none. -/
lemma keeps_flush : Keeps (fun m : Machine Unit => m.context.Lockstep n) flush := by
  cases n with
  | zero =>
    refine .bind (keeps_onState fun m hm => Context.keeps_flush m.context hm) fun changes => ?_
    exact .bind (.modify fun _ hm => ⟨hm.world, rfl⟩) fun _ => .pure _
  | succ n =>
    intro m hm
    unfold flush
    rw [Program.run_bind_error (flush_of_open hm.world)]
    exact hm

/-! ## Embedders -/

/-- What an embedder does with a machine. -/
inductive Command where
  | checkpoint
  | commit
  | revert
  | message (request : Message)
  | code (a : Address) (bytes : Bytes) (gasLimit : Nat)
  | transaction (tx : Transaction)
  | flush
  | configure (config : Config)

namespace Command

/-- Closes a checkpoint of the embedder. -/
def close (op : ContextM CacheError Unit) : MachineM Failure Unit Unit := fun m =>
  let (r, context) := op.run m.context
  (r.mapError (.state ∘ .cache), { m with context })

/-- Does it. Of what comes out, only whether it failed is kept. -/
def run : Command → MachineM Failure Unit Unit
  | checkpoint => modify opened
  | commit => close Context.commit
  | revert => close Context.revert
  | message request => discard (runMessage .silent request)
  | code a bytes gasLimit => discard (runCode .silent a bytes gasLimit)
  | transaction tx => discard (transact .silent tx)
  | flush => discard Machine.flush
  | configure config => modify (Machine.configure config)

/-- Whether it opens or closes a checkpoint of the embedder. -/
def isCheckpointing : Command → Bool
  | checkpoint | commit | revert => true
  | _ => false

/-- Does one thing after the other. -/
def runAll (commands : List Command) (m : Machine Unit) : Machine Unit :=
  commands.foldl (fun m command => (command.run.run m).2) m

/-- Whether it would not be a transaction run while checkpoints are open. -/
def Separate (command : Command) (m : Machine Unit) : Prop :=
  ∀ tx, command = transaction tx → m.context.depth = 0

/-- No transaction is run while checkpoints are open. -/
def AllSeparate : List Command → Machine Unit → Prop
  | [], _ => True
  | command :: rest, m => command.Separate m ∧ AllSeparate rest (command.run.run m).2

variable {m : Machine Unit} {n : Nat} {command : Command}

lemma run_discard {ε : Type} {α : Type} (op : MachineM ε Unit α) (m : Machine Unit) :
    (discard op : MachineM ε Unit PUnit).run m = ((op.run m).1.map fun _ => ⟨⟩, (op.run m).2) := by
  change (op >>= fun _ => pure ⟨⟩ : MachineM ε Unit PUnit).run m = _
  rw [Program.run_bind]
  rcases op.run m with ⟨_ | a, m'⟩ <;> rfl

/-- What neither opens nor closes a checkpoint of the embedder leaves the number of them, a
transaction if there are none. -/
lemma run_lockstep (h : m.context.Lockstep n) (hcommand : command.isCheckpointing = false)
    (hseparate : command.Separate m) : (command.run.run m).2.context.Lockstep n := by
  cases command with
  | checkpoint => cases hcommand
  | commit => cases hcommand
  | revert => cases hcommand
  | configure config =>
    change (m.configure config).context.Lockstep n
    exact ⟨h.world, h.journal⟩
  | message request =>
    rw [run, run_discard]
    exact h.within (.of_continues (execute_continues request m).context)
  | code a bytes gasLimit =>
    rw [run, run_discard]
    exact h.within (runCode_within a bytes gasLimit)
  | transaction tx =>
    rw [run, run_discard]
    have hn : n = 0 := h.world.accounts.symm.trans (hseparate tx rfl)
    obtain ⟨hworld, hjournal, -⟩ := transact_lockstep h tx
    exact ⟨hworld, hjournal.trans hn.symm⟩
  | flush =>
    rw [run, run_discard]
    exact keeps_flush m h

/-- Every command that is no transaction run in an open checkpoint keeps the lockstep. -/
lemma lockstep_run (h : m.context.Lockstep n) (hseparate : command.Separate m) :
    ∃ n', (command.run.run m).2.context.Lockstep n' := by
  cases command with
  | checkpoint => exact ⟨n + 1, h.checkpoint⟩
  | commit =>
    cases n with
    | zero =>
      refine ⟨0, ?_⟩
      change (Context.commit.run m.context).2.Lockstep 0
      rw [Context.commit_of_closed h.world.closed]
      exact h
    | succ n =>
      obtain ⟨c, hrun, hc⟩ := h.commit
      refine ⟨n, ?_⟩
      change (Context.commit.run m.context).2.Lockstep n
      rw [hrun]
      exact hc
  | revert =>
    cases n with
    | zero =>
      refine ⟨0, ?_⟩
      change (Context.revert.run m.context).2.Lockstep 0
      rw [Context.revert_of_closed h.world.closed]
      exact h
    | succ n =>
      obtain ⟨c, hrun, hc⟩ := h.revert
      refine ⟨n, ?_⟩
      change (Context.revert.run m.context).2.Lockstep n
      rw [hrun]
      exact hc
  | message request => exact ⟨n, run_lockstep h rfl hseparate⟩
  | code a bytes gasLimit => exact ⟨n, run_lockstep h rfl hseparate⟩
  | transaction tx => exact ⟨n, run_lockstep h rfl hseparate⟩
  | flush => exact ⟨n, run_lockstep h rfl hseparate⟩
  | configure config => exact ⟨n, run_lockstep h rfl hseparate⟩

lemma exists_lockstep_runAll (h : m.context.Lockstep n) {commands : List Command}
    (hseparate : AllSeparate commands m) : ∃ n', (runAll commands m).context.Lockstep n' := by
  induction commands generalizing m n with
  | nil => exact ⟨n, h⟩
  | cons command rest ih =>
    obtain ⟨n', hn'⟩ := lockstep_run h hseparate.1
    exact ih hn' hseparate.2

/-- An open checkpoint of the embedder can be closed. -/
lemma close_ok (h : m.context.Lockstep (n + 1)) :
    (commit.run.run m).1 = .ok () ∧ (revert.run.run m).1 = .ok () := by
  obtain ⟨_, hcommit, -⟩ := h.commit
  obtain ⟨_, hrevert, -⟩ := h.revert
  constructor
  · change (Context.commit.run m.context).1.mapError _ = _
    rw [hcommit]
    rfl
  · change (Context.revert.run m.context).1.mapError _ = _
    rw [hrevert]
    rfl

/-- The caches and the journal of a machine that starts without open checkpoints have the same
number of them after any commands, as long as no transaction is run while the embedder holds one.
Running messages, code and transactions and flushing leave that number, and an open checkpoint can
be closed either way. A transaction that is run all the same fails and leaves the checkpoints of the
caches open, but those of the journal are gone. -/
theorem lockstep_runAll (env : Env) (world : World) (hclosed : world.Open 0)
    (commands : List Command) (hseparate : AllSeparate commands (start (.ofWorld env world) ())) :
    ∃ n, (runAll commands (start (.ofWorld env world) ())).context.Lockstep n ∧
      (∀ command : Command, command.isCheckpointing = false → (∀ tx, command = transaction tx → n = 0) →
        (command.run.run (runAll commands (start (.ofWorld env world) ()))).2.context.Lockstep n) ∧
      (0 < n →
        (commit.run.run (runAll commands (start (.ofWorld env world) ()))).1 = .ok () ∧
        (revert.run.run (runAll commands (start (.ofWorld env world) ()))).1 = .ok () ∧
        ∀ tx : Transaction, ∃ e m',
          (transaction tx).run.run (runAll commands (start (.ofWorld env world) ())) =
            (.error e, m') ∧
          m'.context.world.Open n ∧ m'.context.journal.depth = 0) := by
  generalize hm : runAll commands (start (.ofWorld env world) ()) = m
  have hstart : (start (.ofWorld env world) () : Machine Unit).context.Lockstep 0 := ⟨hclosed, rfl⟩
  obtain ⟨n, hn⟩ := exists_lockstep_runAll hstart hseparate
  rw [hm] at hn
  refine ⟨n, hn, fun command hcommand htx => ?_, fun hpos => ?_⟩
  · exact run_lockstep hn hcommand fun tx h => hn.world.accounts.trans (htx tx h)
  · obtain ⟨k, rfl⟩ := Nat.exists_eq_succ_of_ne_zero hpos.ne'
    obtain ⟨hcommit, hrevert⟩ := close_ok hn
    refine ⟨hcommit, hrevert, fun tx => ?_⟩
    obtain ⟨hworld, hjournal, hfails⟩ := transact_lockstep hn tx
    obtain ⟨e, he⟩ := hfails hpos
    refine ⟨e, ((transact .silent tx).run m).2, ?_, hworld, hjournal⟩
    rw [run, run_discard, he]
    rfl

/-- A message in a checkpoint that is reverted, a transaction, and a checkpoint that stays open. -/
def revertedMessage : List Command :=
  [.checkpoint, .message (.call 1 2 0 #[] 100), .revert, .transaction { gasLimit := 21000 },
    .checkpoint]

theorem lockstep_runAll_revertedMessage :
    (World.ofStore {} .ordered).Open 0 ∧
      AllSeparate revertedMessage (start (.ofWorld {} (.ofStore {} .ordered)) ()) ∧
      (runAll revertedMessage (start (.ofWorld {} (.ofStore {} .ordered)) ())).context.Lockstep 1 := by
  have hclosed : (World.ofStore {} .ordered).Open 0 := .ofStore _ _
  have hseparate : AllSeparate revertedMessage (start (.ofWorld {} (.ofStore {} .ordered)) ()) := by
    refine ⟨nofun, nofun, nofun, fun tx _ => ?_, nofun, trivial⟩
    rfl
  have hdepth : (runAll revertedMessage
      (start (.ofWorld {} (.ofStore {} .ordered)) ())).context.world.accounts.depth = 1 := by
    decide +kernel
  obtain ⟨n, hn, -⟩ := lockstep_runAll {} (.ofStore {} .ordered) hclosed revertedMessage hseparate
  obtain rfl : 1 = n := hdepth.symm.trans hn.world.accounts
  exact ⟨hclosed, hseparate, hn⟩

/-- A transaction in a checkpoint of the embedder. -/
def heldTransaction : List Command := [.checkpoint, .transaction { gasLimit := 21000 }]

/-- A transaction in a checkpoint of the embedder breaks the lockstep, and the checkpoint cannot be
reverted any more. -/
theorem not_lockstep_heldTransaction :
    ¬ (∃ n, (runAll heldTransaction
        (start (.ofWorld {} (.ofStore {} .ordered)) ())).context.Lockstep n) ∧
      (revert.run.run (runAll heldTransaction (start (.ofWorld {} (.ofStore {} .ordered)) ()))).1 =
        .error (.state (.cache .noCheckpoint)) := by
  have hworld : (runAll heldTransaction
      (start (.ofWorld {} (.ofStore {} .ordered)) ())).context.world.accounts.depth = 1 := by
    decide +kernel
  have hjournal : (runAll heldTransaction
      (start (.ofWorld {} (.ofStore {} .ordered)) ())).context.journal.depth = 0 := by
    decide +kernel
  constructor
  · rintro ⟨n, hn⟩
    obtain rfl := hworld.symm.trans hn.world.accounts
    cases hjournal.symm.trans hn.journal
  · decide +kernel

end Command

end Machine

end Evm
