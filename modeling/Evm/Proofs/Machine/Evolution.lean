import Evm.Proofs.Machine.Conservation
import Evm.Proofs.State.Evolution

/-!
# What messages do to accounts

No message takes a nonce back, changes code that is there, or leaves an empty record pending of an
account that it has not touched (`Context.Evolves`). New contracts come to addresses that were not
taken, and where that is so ruled only new contracts are destroyed (`Substate.Collects`). The sender
of the transaction has a nonce and no code, so that no frame ever acts for it: its nonce and its code
are settled. All of this is proved of the operations of the machine as a host, then of the run of a
frame, and by induction on the levels of messages.
-/

namespace Evm

/-! ## Operations on the world -/

namespace World

variable {w w' : World} {T : Address → Prop} {a b : Address}

/-- Moving value changes two balances. -/
lemma ends_moveValue (hw : w.RecallsAccounts) (features : Features) {sender receiver : Address}
    (value : Word) (hsender : T sender) (hreceiver : T receiver) :
    Ends (w.Rebalances T) (fun _ _ => True)
      (Machine.moveValue features sender receiver value) w := by
  have hrefl : w.Rebalances T w := .refl w
  unfold Machine.moveValue
  refine .ite (fun _ => .ite (fun _ => ?_) fun _ => .pure hrefl trivial) fun _ => ?_
  · obtain ⟨w₁, hrun, href⟩ := exists?_run w receiver
    have h₁ := hrefl.refreshed hw href
    refine .bind (P := fun there w' => there = false → w'.Reads receiver {}) (.of_run hrun h₁ ?_)
      fun there w₂ h₂ hreads => .ite (fun hnone => ?_) fun _ => .pure h₂ trivial
    · rintro there hthere rfl
      cases hread : w.readAccount receiver with
      | error e =>
        rw [hread] at hthere
        cases hthere
      | ok record? =>
        rw [hread] at hthere
        cases record? with
        | none => exact Reads.refreshed ⟨none, hread, rfl⟩ hw href
        | some record => cases hthere
    · exact Rebalances.ends_putAccount h₂ (hreads (Bool.not_eq_true' _ ▸ hnone)) rfl rfl hreceiver
  · refine .bind (Rebalances.ends_accountOrEmpty hw hrefl sender) fun giving w₁ h₁ hgiving => ?_
    refine .step rfl <| .bind (Rebalances.ends_putAccount h₁ hgiving rfl rfl hsender)
      fun _ w₂ h₂ _ => ?_
    refine .bind (Rebalances.ends_accountOrEmpty hw h₂ receiver) fun taking w₃ h₃ htaking => ?_
    exact .step rfl (Rebalances.ends_putAccount h₃ htaking rfl rfl hreceiver)

end World

/-! ## Contexts -/

namespace Context

/-- All pending records that are empty are of accounts that have been touched. -/
def EmptiesTouched (c : Context) : Prop :=
  c.world.EmptiesWithin fun a => c.journal.isTouched a = true

/-- Records have evolved, no touched account was lost, and every empty record that has become
pending is of a touched account. -/
structure Evolves (settled : Address → Prop) (c c' : Context) : Prop where
  env : c'.env = c.env
  world : c.world.Evolves settled c'.world
  touched : ∀ a, c.journal.isTouched a = true → c'.journal.isTouched a = true
  empties : c.EmptiesTouched → c'.EmptiesTouched

variable {c c' c'' c₀ : Context} {settled settled' : Address → Prop}

namespace Evolves

lemma refl (c : Context) : c.Evolves settled c := ⟨rfl, .refl _, fun _ => id, id⟩

lemma trans (h : c.Evolves settled c') (h' : c'.Evolves settled c'') : c.Evolves settled c'' :=
  ⟨h'.env.trans h.env, h.world.trans h'.world, fun a ha => h'.touched a (h.touched a ha),
    h'.empties ∘ h.empties⟩

lemma mono (h : c.Evolves settled c') (himp : ∀ a, settled' a → settled a) :
    c.Evolves settled' c' :=
  ⟨h.env, h.world.mono himp, h.touched, h.empties⟩

lemma features (h : c.Evolves settled c') : c'.features = c.features :=
  congrArg Env.features h.env

/-- The events do not matter. -/
lemma events (h : c.Evolves settled c') (events events' : List Event) :
    Context.Evolves settled { c with events } { c' with events := events' } :=
  ⟨h.env, h.world, h.touched, h.empties⟩

lemma refreshed {world : World} (hw : c.world.RecallsAccounts) (h : c.world.Refreshed world) :
    c.Evolves settled { c with world } :=
  ⟨rfl, .of_refreshed hw h, fun _ => id, fun he => he.congr h.accounts.dirty⟩

lemma journal {journal : Journal}
    (h : ∀ a, c.journal.isTouched a = true → journal.isTouched a = true) :
    c.Evolves settled { c with journal } :=
  ⟨rfl, .refl _, h, fun he => he.mono h⟩

/-- A record may be written that has evolved from the one at the start, if it is not empty or of an
account that is touched by then. -/
lemma write {a : Address} {record : Account} {journal : Journal} (h : c₀.Evolves settled c)
    (hrecord : ∀ record₀, c₀.world.Reads a record₀ → record₀.Evolves (settled a) record)
    (htouched : ∀ a, c.journal.isTouched a = true → journal.isTouched a = true)
    (hempty : record.isEmpty = true → journal.isTouched a = true) :
    c₀.Evolves settled { c with world := c.world.withAccount a (some record), journal } :=
  ⟨h.env, h.world.write hrecord, fun b hb => htouched b (h.touched b hb),
    fun he => ((h.empties he).mono htouched).withAccount hempty⟩

end Evolves

/-- Where nothing was written, no touched account was lost. -/
lemma Unchanged.touched (h : c.Unchanged c') {a : Address} (ha : c.journal.isTouched a = true) :
    c'.journal.isTouched a = true := by
  by_cases hsticky : a = Journal.stickyTouch
  · subst hsticky
    exact h.continues.journal.sticky ha
  · have hview := congrFun (congrArg Journal.View.touched h.agrees.journal) a
    simp only [Journal.view, bne_iff_ne.2 hsticky, Bool.true_and] at hview
    exact hview.trans ha

lemma Unchanged.evolves (hw : c.world.RecallsAccounts) (h : c.Unchanged c') :
    c.Evolves settled c' where
  env := h.continues.env
  world := .of_sameRecords hw ⟨h.continues.world, h.agrees.world.accounts⟩
    h.agrees.world.incarnations
  touched _ := h.touched
  empties he := (he.congr h.agrees.world.accounts).mono fun _ => h.touched

/-- Committing leaves the touched accounts. -/
lemma isTouched_of_commit (h : commit.run c = (.ok (), c')) (a : Address) :
    c'.journal.isTouched a = c.journal.isTouched a := by
  have htouched {journal : Journal} (hj : c.journal.commit? = some journal) :
      journal.touched = c.journal.touched := by
    unfold Journal.commit? at hj
    split at hj <;> cases hj <;> rfl
  exact congrArg (·.contains a) (htouched (commit_eq_ok h).2)

/-- What was done in a checkpoint is done once the checkpoint is committed. -/
lemma Evolves.committed (hw : c.world.RecallsAccounts) (h : c.checkpoint.Evolves settled c')
    (hcommit : commit.run c' = (.ok (), c'')) (hc : c.Continues c'') (ha : c'.Agrees c'') :
    c.Evolves settled c'' where
  env := hc.env
  world := h.world.committed hw hc.world ha.world
  touched a ht := (isTouched_of_commit hcommit a).trans (h.touched a ht)
  empties he := by
    have he' : c''.world.EmptiesWithin fun a => c'.journal.isTouched a = true :=
      (h.empties he).congr ha.world.accounts
    exact he'.mono fun a => (isTouched_of_commit hcommit a).trans

end Context

/-! ## What frames collect -/

namespace Substate

/-- What was added to the sets of a frame: contracts at addresses that were not taken, and destroyed
accounts other than the sender, new contracts only where that is so ruled. -/
structure Collects (sender : Address) (c : Context) (s s' : Substate) : Prop where
  kept : ∀ a ∈ s.created, a ∈ s'.created
  created : ∀ a ∈ s'.created, a ∈ s.created ∨ ¬c.world.Taken a
  destroyed : ∀ a ∈ s'.destroyed, a ∈ s.destroyed ∨
    (a ≠ sender ∧ (c.features.has .eip6780 = true → a ∈ s'.created))

namespace Collects

variable {sender : Address} {c c' : Context} {s s' s'' : Substate} {settled : Address → Prop}

lemma refl (s : Substate) : s.Collects sender c s :=
  ⟨fun _ => id, fun _ => .inl, fun _ => .inl⟩

lemma trans (h : s.Collects sender c s') (hc : c.Evolves settled c')
    (h' : s'.Collects sender c' s'') : s.Collects sender c s'' where
  kept a ha := h'.kept a (h.kept a ha)
  created a ha := by
    rcases h'.created a ha with ha' | hfree
    · exact h.created a ha'
    · exact .inr fun ht => hfree (ht.evolves hc.world)
  destroyed a ha := by
    rcases h'.destroyed a ha with ha' | ⟨hne, hnew⟩
    · exact (h.destroyed a ha').imp id fun ⟨hne, hnew⟩ => ⟨hne, fun hr => h'.kept a (hnew hr)⟩
    · exact .inr ⟨hne, fun hr => hnew (hc.features ▸ hr)⟩

/-- A new contract at an address that was not taken. -/
lemma create {a : Address} (h : s.Collects sender c s') (hfree : ¬c.world.Taken a) :
    s.Collects sender c { s' with created := s'.created.insert a } where
  kept b hb := Std.ExtTreeSet.mem_insert.2 (.inr (h.kept b hb))
  created b hb := by
    rcases Std.ExtTreeSet.mem_insert.1 hb with heq | hb
    · exact .inr (Std.LawfulEqOrd.eq_of_compare heq ▸ hfree)
    · exact h.created b hb
  destroyed b hb := (h.destroyed b hb).imp id fun ⟨hne, hnew⟩ =>
    ⟨hne, fun hr => Std.ExtTreeSet.mem_insert.2 (.inr (hnew hr))⟩

/-- A frame around collects what its message brings. -/
lemma handDown {m : Machine Unit} {message : Message} {result : FrameResult}
    (h : (ofMessage (m.handDown message)).Collects sender c
      ((ofMessage (m.handDown message)).merge result)) :
    m.substate.Collects sender c (m.substate.merge result) := by
  unfold merge at h ⊢
  split
  · rename_i hok
    rw [if_pos hok] at h
    exact ⟨h.kept, h.created, h.destroyed⟩
  · exact .refl _

/-- A message brings what its frame collected. -/
lemma returned {message : Message} {result : FrameResult} (hbare : result.Bare)
    (h : (ofMessage message).Collects sender c s) :
    (ofMessage message).Collects sender c
      ((ofMessage message).merge (result.withSubstate message s)) := by
  cases hok : result.isOk with
  | false =>
    rw [FrameResult.withSubstate_of_failed hok, hbare.merge]
    exact .refl _
  | true =>
    unfold merge
    rw [FrameResult.isOk_withSubstate, hok, if_pos rfl]
    unfold FrameResult.withSubstate
    rw [hok, if_pos rfl]
    have hmem {before after : AddressSet} {a : Address} (ha : a ∈ before ∪ (after \ before)) :
        a ∈ before ∨ a ∈ after :=
      (Std.ExtTreeSet.mem_union_iff.1 ha).imp id fun h => (Std.ExtTreeSet.mem_diff_iff.1 h).1
    have hunion {before after : AddressSet} {a : Address} (ha : a ∈ after) :
        a ∈ before ∪ (after \ before) :=
      Std.ExtTreeSet.mem_union_iff.2 <| (em (a ∈ before)).imp id fun h =>
        Std.ExtTreeSet.mem_diff_iff.2 ⟨ha, h⟩
    refine ⟨fun a ha => Std.ExtTreeSet.mem_union_iff.2 (.inl ha), fun a ha => ?_, fun a ha => ?_⟩
    · exact (hmem ha).elim .inl (h.created a)
    · refine (hmem ha).elim .inl fun ha => ?_
      exact (h.destroyed a ha).imp id fun ⟨hne, hnew⟩ => ⟨hne, fun hr => hunion (hnew hr)⟩

end Collects

end Substate

/-- The message is one that a frame may send, or the call of a transaction. -/
structure Message.Sound (sender : Address) (j : Journal) (message : Message) : Prop where
  /-- No frame creates on behalf of the sender. -/
  creator : message.to? = none → message.caller ≠ sender ∧ j.isTouched message.caller = true
  /-- Who gives value has been touched. -/
  caller : message.isDelegate = false → j.isTouched message.caller = true
  delegate : ∀ target, message.to? = some target → message.isDelegate = true →
    j.isTouched target = true
  /-- No code but its own acts for the sender, and it has none. -/
  code : message.to? = some sender → message.codeAddress = sender ∧ message.code? = none

/-- Touches last. -/
lemma Message.Sound.mono {sender : Address} {j j' : Journal} {message : Message}
    (h : message.Sound sender j) (hj : ∀ a, j.isTouched a = true → j'.isTouched a = true) :
    message.Sound sender j' :=
  ⟨fun hto => (h.creator hto).imp id (hj _), fun hd => hj _ (h.caller hd),
    fun target hto hd => hj target (h.delegate target hto hd), h.code⟩

/-! ## Machines -/

namespace Machine

variable {m m₀ m' m'' : Machine Unit} {sender a : Address}

/-- The machine has gone on within the open checkpoints, accounts have evolved, and so have the sets
of the running frame. Nonce and code of the sender are settled. -/
structure Evolves (sender : Address) (m m' : Machine Unit) : Prop where
  continues : m.Continues m'
  context : m.context.Evolves (· = sender) m'.context
  collects : m.substate.Collects sender m.context m'.substate

namespace Evolves

lemma refl (m : Machine Unit) : m.Evolves sender m := ⟨.refl m, .refl _, .refl _⟩

lemma trans (h : m.Evolves sender m') (h' : m'.Evolves sender m'') : m.Evolves sender m'' :=
  ⟨h.continues.trans h'.continues, h.context.trans h'.context,
    h.collects.trans h.context h'.collects⟩

lemma recalls (h : m.Evolves sender m') (hw : m.context.world.RecallsAccounts) :
    m'.context.world.RecallsAccounts :=
  hw.continues h.continues.context.world

lemma world {world : World} (h : m₀.Evolves sender m)
    (hw : m.context.world.Evolves (· = sender) world)
    (hd : world.accounts.dirty = m.context.world.accounts.dirty) :
    m₀.Evolves sender { m with context := { m.context with world } } :=
  h.trans ⟨.world hw.continues, ⟨rfl, hw, fun _ => id, fun he => he.congr hd⟩, .refl _⟩

/-- A record may be written that has evolved from the one at the start. -/
lemma write {record : Account} {journal : Journal} (h : m₀.Evolves sender m)
    (hrecord : ∀ record₀, m₀.context.world.Reads a record₀ → record₀.Evolves (a = sender) record)
    (hjournal : m.context.journal.Notes journal)
    (hempty : record.isEmpty = true → journal.isTouched a = true) :
    m₀.Evolves sender { m with context := { m.context with
      world := m.context.world.withAccount a (some record), journal } } :=
  ⟨h.continues.trans ⟨⟨rfl, World.continues_withAccount _ a _, hjournal.continues⟩, rfl⟩,
    h.context.write hrecord hjournal.touched hempty, h.collects⟩

end Evolves

/-- What an operation on the world does, done on the machine. -/
lemma ends_onWorld {α : Type} {I : Machine Unit → Prop} {P : α → World → Prop} {op : WorldM α}
    (h : Ends (fun world => I { m with context := { m.context with world } }) P op
      m.context.world) :
    Ends I (fun a m' => P a m'.context.world) (onWorld op : MachineM StateError Unit α) m := by
  obtain ⟨hI, hP⟩ := h
  rcases hrun : op.run m.context.world with ⟨r, world⟩
  rw [hrun] at hI
  refine .of_run (onWorld_run hrun) hI fun a ha => hP a world ?_
  rw [hrun, ha]

/-- What an operation on the world does, attempted on the machine. -/
lemma ends_attempt {α : Type} {I : Machine Unit → Prop} (hI : Stable I) {P : α → World → Prop}
    {op : WorldM α}
    (h : Ends (fun world => I { m with context := { m.context with world } }) P op
      m.context.world) :
    HostM.Ends I (fun b m' => P b m'.context.world) (attempt op) m := by
  obtain ⟨hend, hP⟩ := h
  refine ⟨?_, fun b m' hrun => ?_⟩
  · change I (attempt op m).2
    unfold attempt
    rcases hrun : op.run m.context.world with ⟨e | b, world⟩ <;> rw [onWorld_run hrun]
    · rw [hrun] at hend
      exact hI.parked (hI.report (e := .stateFailed e) nofun hend)
    · rwa [hrun] at hend
  · obtain ⟨world, hrun', rfl⟩ := attempt_run_some hrun
    exact hP b world hrun'

/-! ## The machine as a host -/

/-- The account is not the sender and has been touched. Frames act for such accounts only. -/
def Hosts (sender : Address) (m : Machine Unit) (a : Address) : Prop :=
  a ≠ sender ∧ m.context.journal.isTouched a = true

lemma Hosts.evolves (ha : m.Hosts sender a) (h : m.Evolves sender m') : m'.Hosts sender a :=
  ⟨ha.1, h.context.touched a ha.2⟩

/-- What running a message comes to: accounts have evolved, the frame around has its sets back, and
the result brings what was collected. -/
structure Returns (settled : Address → Prop) (sender : Address) (message : Message)
    (m : Machine Unit) (r : Except StateError FrameResult) (m' : Machine Unit) : Prop where
  continues : m.Continues m'
  context : m.context.Evolves settled m'.context
  substate : m'.substate = m.substate
  collects : ∀ result, r = .ok result → (Substate.ofMessage message).Collects sender m.context
    ((Substate.ofMessage message).merge result)

variable {run : Message → MachineM StateError Unit FrameResult} {message : Message}

variable {x y : Frame × Machine Unit}

end Machine

end Evm
