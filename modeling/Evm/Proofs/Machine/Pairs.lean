import Evm.Proofs.Machine.Lockstep
import Evm.Proofs.Machine.Transaction
import Evm.Proofs.State.Deletions

/-!
# Transactions in pairs

Two machines that differ in what their clean layers remember run a transaction alike. Up to the
deletions at its end this is a case of `Machine.execute_alike`; the deletions use up a part of the
budget, and the flush afterwards succeeds on both machines and writes the same. So a transaction
that fails has failed before its checkpoint was committed, and nothing is left of it
(`Machine.runTransaction_twins`).
-/

namespace Evm

open World (Twins)

variable {used left : Nat} {hused : used ≤ left} {hleft : left < 2 ^ 64}
  {hraised : used + 1 ≤ left} {hraised' : used + 1 + 1 ≤ left}

/-! ## Contexts -/

lemma nodup_toList (s : AddressSet) : s.toList.Nodup := by
  refine Std.ExtTreeSet.distinct_toList.imp fun {a b} hne heq => hne ?_
  rw [heq]
  exact Std.ReflOrd.compare_self

namespace Context

variable {E : List Event → List Event → Prop} {W W' : World → World → Prop}

lemma alike_touch (a : Address) :
    Program.Alike (Resembles E W) (modify fun c => { c with journal := c.journal.touch a } :
      ContextM StateError Unit) (modify fun c => { c with journal := c.journal.touch a }) :=
  .modify fun _ _ h => ⟨h.env, h.world, congrArg (Journal.touch · a) h.journal, h.events⟩

variable [Ledger]

lemma alike_chargeSender (hW : World.Simulation W) :
    Program.Alike (Resembles E W) Settlement.chargeSender Settlement.chargeSender := by
  refine .get_bind fun c c' h => ?_
  dsimp only
  rw [h.env]
  exact .bind (alike_onWorld (hW.accountOrEmpty _)) fun _ =>
    .bind (alike_onWorld (Machine.alike_withdraw _ _)) fun _ =>
      .bind (alike_onWorld (hW.putAccount _ _)) fun _ => alike_touch _

lemma alike_credit (hW : World.Simulation W) (a : Address) (value : Word) :
    Program.Alike W (Settlement.credit a value) (Settlement.credit a value) :=
  .bind (hW.accountOrEmpty a) fun _ => .bind (Machine.alike_deposit _ _) fun _ =>
    hW.putAccount _ _

lemma alike_reimburse (hW : World.Simulation W) (gas : Gas.Meter) :
    Program.Alike (Resembles E W) (Settlement.reimburse gas) (Settlement.reimburse gas) := by
  refine .get_bind fun c c' h => ?_
  dsimp only
  rw [h.env]
  exact alike_onWorld (alike_credit hW _ _)

lemma alike_reward (hW : World.Simulation W) (gas : Gas.Meter) :
    Program.Alike (Resembles E W) (Settlement.reward gas) (Settlement.reward gas) := by
  refine .get_bind fun c c' h => ?_
  dsimp only
  rw [h.env]
  exact .bind (alike_onWorld (alike_credit hW _ _)) fun _ => alike_touch _

omit [Ledger]

lemma leads_deleteDestroyed (destroyed : AddressSet) :
    Program.Leads (Alike (Twins (.evenly used left hused hleft)))
      (Alike (Twins (.evenly (used + 1) left hraised hleft)))
      (Settlement.deleteDestroyed destroyed) (Settlement.deleteDestroyed destroyed) :=
  leads_onWorld (World.leads_deleteAccounts (nodup_toList destroyed))

lemma leads_cleanup [Event.Cumulative E] (hmono : ∀ {w w'}, W w w' → W' w w')
    (hdelete : ∀ touched : AddressSet,
      Program.Leads W W' (deleteEmpty touched.toList) (deleteEmpty touched.toList)) :
    Program.Leads (Resembles E W) (Resembles E W') cleanup cleanup := by
  refine .get_bind fun c c' h => ?_
  rw [h.features, h.journal]
  split
  · refine .bind (leads_onWorld (hdelete _)) (fun deleted => ?_) fun _ _ h => h
    exact Program.Alike.ite (.bind (.modify fun _ _ h => h.report _) fun _ => .pure _) (.pure _)
  · exact fun c c' h => ⟨rfl, h.env, hmono h.world, h.journal, h.events⟩

lemma leads_cleanup_twins :
    Program.Leads (Alike (Twins (.evenly used left hused hleft)))
      (Alike (Twins (.evenly (used + 1) left hraised hleft))) cleanup cleanup :=
  leads_cleanup (fun hw => hw.mono (fun _ => used.le_succ) fun _ => le_rfl) fun touched =>
    World.leads_deleteEmpty (nodup_toList touched)

end Context

/-! ## Machines -/

namespace Machine

variable {ι κ α : Type} {E : List Event → List Event → Prop} {W W' : World → World → Prop}
  {O : ι → κ → Prop} {d : Nat}

lemma Resembles.mono {m : Machine ι} {m' : Machine κ} (h : m.Resembles E W O d m')
    (hW : W m.context.world m'.context.world → W' m.context.world m'.context.world) :
    m.Resembles E W' O d m' :=
  ⟨⟨h.context.env, hW h.context.world, h.context.journal, h.context.events⟩, h.observer,
    h.substate, h.depth, h.depth', h.parked⟩

lemma leads_onState {op : MachineM StateError ι α} {op' : MachineM StateError κ α}
    (h : Program.Leads (Resembles E W O d) (Resembles E W' O d) op op') :
    Program.Leads (Resembles E W O d) (Resembles E W' O d) (onState op) (onState op') := by
  intro m m' hm
  obtain ⟨heq, hm₁⟩ := h m m' hm
  exact ⟨congrArg (Except.mapError Failure.state) heq, hm₁⟩

lemma alike_require (check : Except InvalidTransaction α) :
    Program.Alike (Resembles E W O d) (require check : MachineM Failure ι α) (require check) := by
  cases check with
  | error e => exact .throw _
  | ok a => exact .pure a

variable [Ledger] {i : Inspector ι} {i' : Inspector κ}

/-- Settling a transaction raises each incarnation twice at most. -/
theorem leads_settle
    (hi : i.Alike (Twins (.evenly used left hused hleft)) O i') (intrinsicGas : Nat) :
    Program.Leads (Alike (Twins (.evenly used left hused hleft)) O d)
      (Alike (Twins (.evenly (used + 1 + 1) left hraised' hleft)) O d)
      (settle i intrinsicGas) (settle i' intrinsicGas) := by
  have hW := World.simulation_twins (.evenly used left hused hleft)
  have hmono (m : Machine ι) (m' : Machine κ)
      (h : m.Alike (Twins (.evenly used left hused hleft)) O d m') :
      m.Alike (Twins (.evenly (used + 1 + 1) left hraised' hleft)) O d m' :=
    h.mono fun hw => hw.mono (fun _ => used.le_add_right 2) fun _ => le_rfl
  have hmono' (m : Machine ι) (m' : Machine κ)
      (h : m.Alike (Twins (.evenly (used + 1) left (Nat.le_of_succ_le hraised') hleft)) O d m') :
      m.Alike (Twins (.evenly (used + 1 + 1) left hraised' hleft)) O d m' :=
    h.mono fun hw => hw.mono (fun _ => (used + 1).le_succ) fun _ => le_rfl
  refine .get_bind fun m m' h => ?_
  dsimp only
  rw [h.context.env]
  refine .bind (leads_onState (alike_onWorld (hW.accountOrEmpty _))) (fun sender => ?_) hmono
  refine .bind (alike_require _) (fun _ => ?_) hmono
  refine .bind (alike_onJournal _) (fun _ => ?_) hmono
  refine .bind (leads_onState (alike_onContext (Context.alike_chargeSender hW))) (fun _ => ?_) hmono
  refine .bind (leads_onState (execute_alike hW hi _)) (fun frame => ?_) hmono
  refine .bind (leads_onState (alike_onContext (Context.alike_reimburse hW _))) (fun _ => ?_) hmono
  refine .bind (leads_onState (alike_onContext (Context.alike_reward hW _))) (fun _ => ?_) hmono
  refine .bind (leads_onState (leads_onContext (Context.leads_deleteDestroyed frame.destroyed)))
    (fun _ => ?_) hmono'
  exact .bind (leads_onState (leads_onContext Context.leads_cleanup_twins))
    (fun _ => .of_alike (.pure _)) fun _ _ h => h

/-! ### Flushing -/

/-- The machine once what was pending in its world is written to the store. -/
def written (m : Machine ι) (pending : Pending) (world : World) : Machine ι :=
  { m with context := { m.context with
      world, events := .flushing pending.ops.length :: m.context.events } }

omit [Ledger] in
lemma flush_run {m : Machine ι} {pending : Pending} {world : World}
    (h : m.context.world.Flushes pending world) :
    (onState (onContext Context.flush) : MachineM Failure ι Changeset).run m =
      (.ok pending.changes, m.written pending world) := by
  obtain ⟨w₁, hprepare, hwrite⟩ := h
  have hflush : Context.flush.run m.context =
      (.ok pending.changes, (m.written pending world).context) := by
    unfold Context.flush
    rw [Program.run_bind_ok (Context.onWorld_run hprepare),
      Program.run_bind_ok (Program.run_modify _ _), Program.run_bind_ok (Context.onWorld_run hwrite)]
    rfl
  exact onState_run (onContext_run hflush)

/-! ### Transactions -/

omit [Ledger] in
lemma require_run_ok {check : Except InvalidTransaction α} {a : α} (h : check = .ok a)
    (m : Machine ι) : (require check).run m = (.ok a, m) := by
  rw [h]
  rfl

omit [Ledger] in
lemma require_run_error {check : Except InvalidTransaction α} {e : InvalidTransaction}
    (h : check = .error e) (m : Machine ι) :
    (require check).run m = (.error (.transaction e), m) := by
  rw [h]
  rfl

/-- What a settled transaction gives once its effects are written. -/
def receiptOf (env : Env) (settled : FrameResult × Gas.Meter × List Address) (pending : Pending) :
    Receipt where
  result := .ofFrame settled.1 settled.2.1 env.transaction.isCreate
  changes := pending.changes
  destroyed := settled.1.destroyed
  created := settled.1.created
  cleaned := settled.2.2

/-- The machine once the effects of a settled transaction are written. -/
def executed (m : Machine ι) (receipt : Receipt) (pending : Pending) (world : World) : Machine ι :=
  let m := m.written pending world
  let e := Event.transactionExecuted receipt.result.isSuccess receipt.result.gasUsed
  { m with context := m.context.report e }

/-- What a transaction has to pass before the world is looked at. It gives its intrinsic gas. -/
def precheck (env : Env) : Except InvalidTransaction Nat := do
  env.checkBlock
  env.checkIntrinsicGas

omit [Ledger] in
lemma precheck_error {env : Env} {e : InvalidTransaction} (h : precheck env = .error e) :
    env.checkBlock = .error e ∨ env.checkBlock = .ok () ∧ env.checkIntrinsicGas = .error e := by
  unfold precheck at h
  cases hblock : env.checkBlock with
  | error e' =>
    rw [hblock] at h
    exact .inl (congrArg _ (Except.error.inj h))
  | ok _ =>
    rw [hblock] at h
    exact .inr ⟨rfl, h⟩

omit [Ledger] in
lemma precheck_ok {env : Env} {intrinsicGas : Nat} (h : precheck env = .ok intrinsicGas) :
    env.checkBlock = .ok () ∧ env.checkIntrinsicGas = .ok intrinsicGas := by
  unfold precheck at h
  cases hblock : env.checkBlock with
  | error e =>
    rw [hblock] at h
    cases h
  | ok _ =>
    rw [hblock] at h
    exact ⟨rfl, h⟩

/-- A transaction that is settled goes through if what is pending can be written. -/
lemma runTransaction_ok {i : Inspector ι} {m m₁ : Machine ι} {intrinsicGas : Nat}
    {settled : FrameResult × Gas.Meter × List Address} {pending : Pending} {world : World}
    (h : precheck m.context.env = .ok intrinsicGas)
    (hsettle : (guarded (.state ∘ .cache) (fun _ => true) (settle i intrinsicGas)).run m =
      (.ok settled, m₁))
    (hflush : m₁.context.world.Flushes pending world) :
    (runTransaction i).run m =
      (.ok (receiptOf m.context.env settled pending),
        m₁.executed (receiptOf m.context.env settled pending) pending world) := by
  obtain ⟨hblock, hgas⟩ := precheck_ok h
  unfold runTransaction
  rw [Program.run_bind_ok (Program.run_get _), Program.run_bind_ok (require_run_ok hblock m),
    Program.run_bind_ok (require_run_ok hgas m),
    Program.run_bind_ok hsettle]
  dsimp only
  rw [Program.run_bind_ok (flush_run hflush)]
  rfl

/-- A transaction that does not pass the first checks is rejected at once. -/
lemma runTransaction_unfit {i : Inspector ι} {m : Machine ι} {e : InvalidTransaction}
    (h : precheck m.context.env = .error e) :
    (runTransaction i).run m = (.error (.transaction e), m) := by
  unfold runTransaction
  rw [Program.run_bind_ok (Program.run_get _)]
  rcases precheck_error h with hblock | ⟨hblock, hgas⟩
  · rw [Program.run_bind_error (require_run_error hblock m)]
  · rw [Program.run_bind_ok (require_run_ok hblock m),
      Program.run_bind_error (require_run_error hgas m)]

/-- A transaction that is not settled is rejected as well. -/
lemma runTransaction_unsettled {i : Inspector ι} {m m₁ : Machine ι} {intrinsicGas : Nat}
    {e : Failure} (h : precheck m.context.env = .ok intrinsicGas)
    (hsettle : (guarded (.state ∘ .cache) (fun _ => true) (settle i intrinsicGas)).run m =
      (.error e, m₁)) :
    (runTransaction i).run m = (.error e, m₁) := by
  obtain ⟨hblock, hgas⟩ := precheck_ok h
  unfold runTransaction
  rw [Program.run_bind_ok (Program.run_get _), Program.run_bind_ok (require_run_ok hblock m),
    Program.run_bind_ok (require_run_ok hgas m),
    Program.run_bind_error hsettle]

/-- How a transaction ends on two machines. Either it is rejected, and then what was pending is
pending as before; or it is executed, and then everything is written to the store. -/
inductive EndsAlike (used left : Nat) (hleft : left < 2 ^ 64) (d : Nat) (m : Machine Unit) :
    Except Failure Receipt × Machine Unit → Except Failure Receipt × Machine Unit → Prop
  | rejected (e : Failure) {m₁ m₁' : Machine Unit} (hraised : used + 1 + 1 ≤ left)
      (alike : m₁.Alike (Twins (.evenly (used + 1 + 1) left hraised hleft)) (fun _ _ => True) d m₁')
      (within : m.context.Within m₁.context)
      (same : m.context.world.SamePending m₁.context.world) :
      EndsAlike used left hleft d m (.error e, m₁) (.error e, m₁')
  | executed (receipt : Receipt) {m₁ m₁' : Machine Unit} (hlt : left - (used + 1 + 1) < 2 ^ 64)
      (alike : m₁.Alike (Twins (.evenly 0 (left - (used + 1 + 1)) (Nat.zero_le _) hlt))
        (fun _ _ => True) d m₁')
      (env : m₁.context.env = m.context.env) (closed : m₁.context.world.Closed)
      (settled : m₁.context.world.Settled) :
      EndsAlike used left hleft d m (.ok receipt, m₁) (.ok receipt, m₁')

variable {m m' : Machine Unit}

/-- Machines over twins run a transaction alike. -/
theorem runTransaction_twins (hraised : used + 1 + 1 ≤ left)
    (h : m.Alike (Twins (.evenly used left hused hleft)) (fun _ _ => True) d m')
    (hclosed : m.context.world.Closed) :
    EndsAlike used left hleft d m ((runTransaction .silent).run m)
      ((runTransaction .silent).run m') := by
  have hmono (w w' : World) (hw : Twins (.evenly used left hused hleft) w w') :
      Twins (.evenly (used + 1 + 1) left hraised hleft) w w' :=
    hw.mono (fun _ => used.le_add_right 2) fun _ => le_rfl
  cases hcheck : precheck m.context.env with
  | error e =>
    rw [runTransaction_unfit hcheck, runTransaction_unfit (h.context.env ▸ hcheck)]
    exact .rejected _ hraised (h.mono (hmono _ _)) (.refl _) (.refl _)
  | ok intrinsicGas =>
    have hcheck' : precheck m'.context.env = .ok intrinsicGas := h.context.env ▸ hcheck
    have hsettles : Program.Leads
        (Alike (Twins (.evenly used left hused hleft)) (fun _ _ => True) d)
        (Alike (Twins (.evenly (used + 1 + 1) left hraised hleft)) (fun _ _ => True) d)
        (guarded (.state ∘ .cache) (fun _ => true) (settle .silent intrinsicGas))
        (guarded (.state ∘ .cache) (fun _ => true) (settle .silent intrinsicGas)) :=
      leads_guarded (World.simulation_twins _) _ _ (World.simulation_twins _)
        (leads_settle Inspector.alike_silent intrinsicGas)
    -- What the settlement does is the same on both; that it stays within its checkpoint, and leaves
    -- the caches closed, is known of the first machine alone.
    obtain ⟨hsame, hm₁⟩ := hsettles m m' h
    obtain ⟨m₂, hrun, hwithin, hpending⟩ := guarded_within (Failure.state ∘ StateError.cache)
      (fun _ => true) (Prod.mk.eta (p := (settle .silent intrinsicGas).run m.opened)).symm
      (keeps_settle intrinsicGas m.opened (.refl _))
    rcases hrun' : (guarded (.state ∘ .cache) (fun _ => true) (settle .silent intrinsicGas)).run m'
      with ⟨r, m₂'⟩
    rw [hrun, hrun'] at hsame hm₁
    obtain rfl : _ = r := hsame
    cases hr : ((settle .silent intrinsicGas).run m.opened).1 with
    | error e =>
      rw [hr] at hrun hrun' hpending
      rw [runTransaction_unsettled hcheck hrun, runTransaction_unsettled hcheck' hrun']
      exact .rejected e hraised hm₁ hwithin hpending
    | ok settled =>
      rw [hr] at hrun hrun'
      have hclosed₂ : m₂.context.world.Closed := (hclosed.open.continues hwithin.world).closed
      obtain ⟨pending, w₁, w₁', hflush, hflush', hw₁, hclosed₁, hsettled, hcurrent⟩ :=
        hm₁.context.world.flush hclosed₂
      rw [runTransaction_ok hcheck hrun hflush, runTransaction_ok hcheck' hrun' hflush',
        h.context.env]
      -- The store has caught up with all incarnations, so that nothing of the budget is in use.
      have hbudget (a : Address) : left - (used + 1 + 1) ≤
          left - m₂.context.world.store.age a (w₁.store.incarnation a) := by
        rw [hcurrent]
        exact Nat.sub_le_sub_left
          (hm₁.context.world.orderly.age_incarnationIn List.mem_cons_self a) left
      have hw : Twins (.evenly 0 (left - (used + 1 + 1)) (Nat.zero_le _)
          ((Nat.sub_le _ _).trans_lt hleft)) w₁ w₁' :=
        hw₁.mono (fun _ => le_rfl) hbudget
      have hc := hm₁.context
      refine .executed _ ((Nat.sub_le _ _).trans_lt hleft) ⟨⟨hc.env, hw, hc.journal, ?_⟩, trivial,
        hm₁.substate, hm₁.depth, hm₁.depth', hm₁.parked⟩ hwithin.env hclosed₁ hsettled
      exact congrArg (_ :: _ :: ·) hc.events

end Machine

end Evm
