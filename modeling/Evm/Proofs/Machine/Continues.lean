import Evm.Machine.Frame
import Evm.Proofs.Execution.Moves
import Evm.Proofs.Journal
import Evm.Proofs.State.Reads

/-!
# Running within checkpoints

Whatever runs on a machine goes on from the checkpoints that are open (`Machine.Continues`): it may
open further ones and write as it likes, but it closes what it opened, and reverting what was open
before still comes to the same. This is proved of every operation of the machine as a host, then of
the moves of a frame, and by induction on the levels of messages of whole executions. On top of it
`guarded_run` says exactly what the checkpoint of a frame does.
-/

namespace Evm

/-! ## Contexts -/

namespace Context

/-- Nothing was flushed in between, and reverting the open checkpoints comes to the same. -/
structure Continues (c c' : Context) : Prop where
  env : c'.env = c.env
  world : c.world.Continues c'.world
  journal : c.journal.Continues c'.journal

/-- The two contexts have the same writes pending, and their journals say the same. -/
structure Agrees (c c' : Context) : Prop where
  world : c.world.SamePending c'.world
  journal : c'.journal.view = c.journal.view

/-- Nothing was written in between. -/
structure Unchanged (c c' : Context) : Prop where
  continues : c.Continues c'
  agrees : c.Agrees c'

variable {c c' c'' : Context}

lemma Continues.refl (c : Context) : c.Continues c := ⟨rfl, .refl _, .refl _⟩

lemma Continues.trans (h : c.Continues c') (h' : c'.Continues c'') : c.Continues c'' :=
  ⟨h'.env.trans h.env, h.world.trans h'.world, h.journal.trans h'.journal⟩

lemma Agrees.refl (c : Context) : c.Agrees c := ⟨.refl _, rfl⟩

lemma Agrees.trans (h : c.Agrees c') (h' : c'.Agrees c'') : c.Agrees c'' :=
  ⟨h.world.trans h'.world, h'.journal.trans h.journal⟩

lemma Unchanged.refl (c : Context) : c.Unchanged c := ⟨.refl c, .refl c⟩

lemma Unchanged.trans (h : c.Unchanged c') (h' : c'.Unchanged c'') : c.Unchanged c'' :=
  ⟨h.continues.trans h'.continues, h.agrees.trans h'.agrees⟩

/-- Nothing is written by what only refreshes the clean layers. -/
lemma Unchanged.world {world : World} (h : c.world.Refreshed world) :
    c.Unchanged { c with world } :=
  ⟨⟨rfl, h.continues, .refl _⟩,
    ⟨⟨h.accounts.dirty, h.storage.dirty, h.code.dirty, h.incarnations.dirty⟩, rfl⟩⟩

/-- The events do not matter. -/
lemma Unchanged.events (h : c.Unchanged c') (events events' : List Event) :
    Unchanged { c with events } { c' with events := events' } :=
  ⟨⟨h.continues.env, h.continues.world, h.continues.journal⟩, ⟨h.agrees.world, h.agrees.journal⟩⟩

lemma commit_run {world : World} {journal : Journal} (hw : c.world.commit = .ok world)
    (hj : c.journal.commit? = some journal) :
    commit.run c = (.ok (), { c with world, journal }.report (.commit world.depth)) := by
  change commit c = _
  unfold commit
  rw [hw]
  dsimp only
  rw [hj]
  rfl

lemma onWorld_run {α : Type} {op : WorldM α} {r : Except StateError α} {world : World}
    (h : op.run c.world = (r, world)) : (onWorld op).run c = (r, { c with world }) := by
  change ((op.run c.world).1, { c with world := (op.run c.world).2 }) = _
  rw [h]

/-- A context that commits does so with its world and its journal. -/
lemma commit_eq_ok (h : commit.run c = (.ok (), c')) :
    c.world.commit = .ok c'.world ∧ c.journal.commit? = some c'.journal := by
  change commit c = _ at h
  unfold commit at h
  cases hworld : c.world.commit with
  | error e =>
    rw [hworld] at h
    cases h
  | ok world =>
    rw [hworld] at h
    dsimp only at h
    split at h
    · cases h
    · rename_i hjournal
      cases h
      exact ⟨rfl, hjournal⟩

lemma revert_run {world : World} {journal : Journal} (hw : c.world.revert = .ok world)
    (hj : c.journal.revert? = some journal) :
    revert.run c = (.ok (), { c with world, journal }.report (.revert world.depth)) := by
  change revert c = _
  unfold revert
  rw [hw]
  dsimp only
  rw [hj]
  rfl

/-- Committing keeps what was done in the checkpoint. -/
lemma Continues.commit (h : c.checkpoint.Continues c') :
    ∃ c'', commit.run c' = (.ok (), c'') ∧ c.Continues c'' ∧ c'.Agrees c'' := by
  obtain ⟨world, hw, hwc, hwp⟩ := h.world.commit
  obtain ⟨journal, hj, hjc, hjv⟩ := h.journal.commit?
  exact ⟨_, commit_run hw hj, ⟨h.env, hwc, hjc⟩, ⟨hwp, hjv⟩⟩

/-- Abandoning gives up what was done in the checkpoint. -/
lemma Continues.abandon (h : c.checkpoint.Continues c') :
    c.Unchanged c'.abandon := by
  obtain ⟨world, hw, hwc, hwp⟩ := h.world.revert
  obtain ⟨journal, hj, hjc, hjv⟩ := h.journal.revert?
  rw [Context.abandon, revert_run hw hj]
  exact ⟨⟨h.env, hwc, hjc⟩, ⟨hwp, hjv⟩⟩

end Context

/-! ## Machines -/

namespace Machine

variable {ι ε α : Type}

/-- The machine has gone on within the open checkpoints, in the same frame. -/
structure Continues (m m' : Machine ι) : Prop where
  context : m.context.Continues m'.context
  depth : m'.depth = m.depth

variable {m m₀ m' m'' : Machine ι}

lemma Continues.refl (m : Machine ι) : m.Continues m := ⟨.refl _, rfl⟩

lemma Continues.trans (h : m.Continues m') (h' : m'.Continues m'') : m.Continues m'' :=
  ⟨h.context.trans h'.context, h'.depth.trans h.depth⟩

lemma Continues.world {world : World} (h : m.context.world.Continues world) :
    m.Continues { m with context := { m.context with world } } :=
  ⟨⟨rfl, h, .refl _⟩, rfl⟩

lemma Continues.journal {journal : Journal} (h : m.context.journal.Continues journal) :
    m.Continues { m with context := { m.context with journal } } :=
  ⟨⟨rfl, .refl _, h⟩, rfl⟩

/-! ## Operations -/

lemma onWorld_run {op : WorldM α} {r : Except StateError α} {world : World}
    (h : op.run m.context.world = (r, world)) :
    (onWorld op : MachineM StateError ι α).run m =
      (r, { m with context := { m.context with world } }) := by
  change (((Context.onWorld op).run m.context).1,
    { m with context := ((Context.onWorld op).run m.context).2 }) = _
  rw [Context.onWorld_run h]

lemma keeps_onWorld {op : WorldM α} (h : ∀ w₀ : World, Keeps w₀.Continues op) :
    Keeps m₀.Continues (onWorld op : MachineM StateError ι α) :=
  fun m hm => hm.trans (.world (h m.context.world _ (.refl _)))

/-- Reads do not matter to the invariant: neither what the clean layers remember, nor what the
journal notes within the open checkpoints, nor the machine's own reports and parked failures. -/
structure Stable (I : Machine ι → Prop) : Prop where
  refreshed : ∀ {m world}, I m → m.context.world.Refreshed world →
    I { m with context := { m.context with world } }
  journal : ∀ {m journal}, I m → m.context.journal.Notes journal →
    I { m with context := { m.context with journal } }
  report : ∀ {m} {e : Event}, e.channel ≠ .tracer → I m →
    I { m with context := m.context.report e }
  parked : ∀ {m e?}, I m → I { m with parked? := e? }

lemma stable_continues (m₀ : Machine ι) : Stable m₀.Continues where
  refreshed hm h := hm.trans (.world h.continues)
  journal hm h := hm.trans (.journal h.continues)
  report _ hm := hm.trans ⟨⟨rfl, .refl _, .refl _⟩, rfl⟩
  parked hm := hm.trans ⟨.refl _, rfl⟩

/-- Nothing of what the machine does matters to the property, apart from writing slots and
incarnations and from closing checkpoints. -/
structure Robust (I : Machine ι → Prop) : Prop where
  world : ∀ {m world}, I m → m.context.world.SameSlots world →
    I { m with context := { m.context with world } }
  journal : ∀ {m journal}, I m → m.context.journal.Continues journal →
    I { m with context := { m.context with journal } }
  report : ∀ {m} {e : Event}, e.channel ≠ .tracer → I m →
    I { m with context := m.context.report e }
  parked : ∀ {m e?}, I m → I { m with parked? := e? }
  substate : ∀ {m substate}, I m → I { m with substate }

lemma robust_continues (m₀ : Machine ι) : Robust m₀.Continues where
  world hm h := hm.trans (.world h.continues)
  journal hm h := hm.trans (.journal h)
  report _ hm := hm.trans ⟨⟨rfl, .refl _, .refl _⟩, rfl⟩
  parked hm := hm.trans ⟨.refl _, rfl⟩
  substate hm := hm.trans ⟨.refl _, rfl⟩

variable {I : Machine ι → Prop}

lemma Robust.stable (hI : Robust I) : Stable I where
  refreshed hm h := hI.world hm (.of_refreshed h)
  journal hm h := hI.journal hm h.continues
  report := hI.report
  parked := hI.parked

lemma Robust.onWorld (hI : Robust I) {op : WorldM α} (h : ∀ w₀ : World, Keeps w₀.SameSlots op) :
    Keeps I (onWorld op : MachineM StateError ι α) :=
  fun m hm => hI.world hm (h m.context.world _ (.refl _))

lemma keeps_onRead (hI : Stable I) {op : WorldM α} (h : World.Reading op) :
    Keeps I (onWorld op : MachineM StateError ι α) :=
  fun m hm => hI.refreshed hm (h m.context.world)

lemma keeps_onJournal (hI : Stable I) {f : Journal → Journal} (h : ∀ j : Journal, j.Notes (f j)) :
    Keeps I (onJournal f : MachineM ε ι Unit) :=
  fun m hm => hI.journal hm (h m.context.journal)

lemma keeps_report (hI : Stable I) {e : Event} (he : e.channel ≠ .tracer) :
    Keeps I (report e : MachineM ε ι Unit) :=
  fun _ hm => hI.report he hm

/-! ## Checkpoints -/

/-- The machine with one more checkpoint. -/
def opened (m : Machine ι) : Machine ι := { m with context := m.context.checkpoint }

/-- Whether a checkpoint with that result is committed. -/
def isKept (keep : α → Bool) : Except ε α → Bool
  | .ok a => keep a
  | .error _ => false

/-- A guarded operation has the result of what it guards, if its checkpoint can be committed. -/
lemma guarded_eq (ofCache : CacheError → ε) (keep : α → Bool) {body : MachineM ε ι α}
    {r : Except ε α} {committed : Context} (hrun : body.run m.opened = (r, m'))
    (hcommit : Context.commit.run m'.context = (.ok (), committed)) :
    (guarded ofCache keep body).run m =
      (r, { m' with context := if isKept keep r then committed else m'.context.abandon }) := by
  change body.run { m with context := m.context.checkpoint } = (r, m') at hrun
  change guarded ofCache keep body m = _
  unfold guarded
  rw [hrun]
  cases r with
  | error e => rfl
  | ok a =>
    cases hk : keep a with
    | false => simp only [hk, isKept, Bool.false_eq_true, if_false]
    | true => simp only [hk, isKept, if_true, hcommit]

/-- A guarded operation has the result of what it guards. It keeps everything that was done if the
result is one to keep, and nothing at all otherwise. -/
theorem guarded_run (ofCache : CacheError → ε) (keep : α → Bool) {body : MachineM ε ι α}
    {r : Except ε α} (hrun : body.run m.opened = (r, m'))
    (h : m.opened.Continues m') :
    ∃ m'', (guarded ofCache keep body).run m = (r, m'') ∧ m.Continues m'' ∧
      m''.substate = m'.substate ∧ m''.parked? = m'.parked? ∧
      if isKept keep r then m'.context.Agrees m''.context else m.context.Agrees m''.context := by
  have hcontext : m.context.checkpoint.Continues m'.context := h.context
  have habandon := hcontext.abandon
  obtain ⟨committed, hcommit, hcontinues, hagrees⟩ := hcontext.commit
  refine ⟨_, guarded_eq ofCache keep hrun hcommit, ?_, rfl, rfl, ?_⟩
  · cases isKept keep r with
    | false => exact ⟨habandon.continues, h.depth⟩
    | true => exact ⟨hcontinues, h.depth⟩
  · cases isKept keep r with
    | false => exact habandon.agrees
    | true => exact hagrees

/-- A guarded operation goes on from the open checkpoints if what it guards does. -/
lemma keeps_guarded {ofCache : CacheError → ε} {keep : α → Bool} {body : MachineM ε ι α}
    (h : ∀ m₀ : Machine ι, Keeps m₀.Continues body) :
    Keeps m₀.Continues (guarded ofCache keep body) := by
  intro m hm
  obtain ⟨m', hrun, hcontinues, -⟩ := guarded_run ofCache keep
    (Prod.mk.eta (p := body.run m.opened)).symm (h _ _ (.refl _))
  rw [hrun]
  exact hm.trans hcontinues

/-- What a guarded operation gives comes from what it guards. -/
lemma guarded_eq_ok {ofCache : CacheError → ε} {keep : α → Bool} {body : MachineM ε ι α}
    {m m' : Machine ι} {a : α} (h : (guarded ofCache keep body).run m = (.ok a, m')) :
    ∃ m₁, body.run m.opened = (.ok a, m₁) := by
  change guarded ofCache keep body m = _ at h
  unfold guarded at h
  split at h
  · cases h
  · rename_i hbody
    split at h
    · split at h <;> cases h
      exact ⟨_, hbody⟩
    · cases h
      exact ⟨_, hbody⟩

/-- The checkpoint does not change what a guarded operation gives. -/
lemma gives_guarded {P : α → Prop} {ofCache : CacheError → ε} {keep : α → Bool}
    {body : MachineM ε ι α} (h : Gives P body) : Gives P (guarded ofCache keep body) := by
  intro m m' a hrun
  obtain ⟨m₁, hbody⟩ := guarded_eq_ok hrun
  exact h _ _ _ hbody

end Machine

end Evm
