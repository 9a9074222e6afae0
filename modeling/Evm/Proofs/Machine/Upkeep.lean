import Evm.Proofs.Machine.Watching
import Evm.Proofs.State.Lasting

/-!
# The upkeep of the world

To compare what is read before and after an execution takes a world from which nothing gets lost.
Over a store that does not fail every machine has one, whatever an embedder had it do before: the
machine runs messages, code and transactions alike over twins of its world, and each of them uses up
little of the budget of incarnations (`Machine.Command.sound_run`). So whatever the clean layers
forget can be read again, as long as the commands are so few that no incarnation comes round
(`Machine.Command.lasting_runAll`).
-/

namespace Evm

open World (Twins)

namespace World.Sound

variable {w w' : World} {n : Nat}

lemma committed (h : w.Sound (n + 1)) (hw : w.commit = .ok w') : w'.Sound n := by
  have hrun : (closing commit).run w = (.ok (), w') := by rw [closing_run, hw]
  have h' := h.serve .commit
  rw [World.serve, Program.run_bind_ok hrun] at h'
  exact h'

lemma reverted (h : w.Sound (n + 1)) (hw : w.revert = .ok w') : w'.Sound n := by
  have hrun : (closing revert).run w = (.ok (), w') := by rw [closing_run, hw]
  have h' := h.serve .revert
  rw [World.serve, Program.run_bind_ok hrun] at h'
  exact h'

lemma flushed (h : w.Sound (n + 1)) : (flush.run w).2.Sound n := by
  have h' := h.serve .flush
  rw [World.serve, Program.run_bind] at h'
  rcases hrun : flush.run w with ⟨_ | _, w₁⟩ <;> rw [hrun] at h' <;> exact h'

end World.Sound

/-! ## Contexts -/

namespace Context

variable {c : Context} {n : Nat}

lemma sound_commit (h : c.world.Sound (n + 1)) : (commit.run c).2.world.Sound n := by
  change (Context.commit c).2.world.Sound n
  unfold Context.commit
  cases hw : c.world.commit with
  | error e => exact h.mono n.le_succ
  | ok world => cases c.journal.commit? <;> exact h.committed hw

lemma sound_revert (h : c.world.Sound (n + 1)) : (revert.run c).2.world.Sound n := by
  change (Context.revert c).2.world.Sound n
  unfold Context.revert
  cases hw : c.world.revert with
  | error e => exact h.mono n.le_succ
  | ok world => cases c.journal.revert? <;> exact h.reverted hw

/-- To the world it makes no difference that its flush is reported. -/
lemma world_flush (c : Context) : (flush.run c).2.world = (World.flush.run c.world).2 := by
  unfold flush World.flush
  rcases hp : World.prepareFlush.run c.world with ⟨e | pending, w⟩
  · rw [Program.run_bind_error (onWorld_run hp), Program.run_bind_error hp]
  · rw [Program.run_bind_ok (onWorld_run hp), Program.run_bind_ok hp,
      Program.run_bind_ok (Program.run_modify _ _)]
    rcases hw : (World.writeBatch pending.ops).run w with ⟨e | _, w'⟩
    · rw [Program.run_bind_error (onWorld_run hw), Program.run_bind_error hw]
    · rw [Program.run_bind_ok (onWorld_run hw), Program.run_bind_ok hw]
      rfl

lemma sound_flush (h : c.world.Sound (n + 1)) : (flush.run c).2.world.Sound n := by
  rw [world_flush]
  exact h.flushed

end Context

/-! ## Machines -/

namespace Machine

variable {ε α : Type} {n : Nat} {m : Machine Unit}

/-- What machines over twins do alike, closing all checkpoints that it opens, keeps a world sound
up to what it uses of the budget. -/
lemma sound_of_leads {op : MachineM ε Unit α} {k : Nat} (h : m.context.world.Sound (n + k))
    (hwithin : m.context.Within (op.run m).2.context)
    (hop : ∀ (used left : Nat) (hused : used ≤ left) (hraised : used + k ≤ left)
      (hleft : left < 2 ^ 64), Program.Leads
        (Alike (Twins (.evenly used left hused hleft)) (fun _ _ => True) m.depth)
        (Alike (Twins (.evenly (used + k) left hraised hleft)) (fun _ _ => True) m.depth)
        op op) :
    (op.run m).2.context.world.Sound n := by
  obtain ⟨used, left, hused, hleft, ⟨htwins, d, hd⟩, hroom⟩ := h
  have hraised : used + k ≤ left := by omega
  have hself : m.Alike (Twins (.evenly used left hused hleft)) (fun _ _ => True) m.depth m :=
    ⟨⟨rfl, htwins, rfl, rfl⟩, trivial, rfl, rfl, rfl, rfl⟩
  obtain ⟨-, hends⟩ := hop used left hused hraised hleft m m hself
  exact ⟨used + k, left, hraised, hleft,
    ⟨hends.context.world, d, hd.continues hwithin.world⟩, by omega⟩

lemma sound_runMessage (h : m.context.world.Sound n) (message : Message) :
    ((runMessage .silent message).run m).2.context.world.Sound n :=
  sound_of_leads (k := 0) h (.of_continues (execute_continues message m).context)
    fun _ _ _ _ _ => alike_runMessage (World.simulation_twins _) Inspector.alike_silent message

lemma sound_runCode (h : m.context.world.Sound n) (a : Address) (code : Bytes) (gasLimit : Nat) :
    ((runCode .silent a code gasLimit).run m).2.context.world.Sound n :=
  sound_of_leads (k := 0) h (runCode_within a code gasLimit) fun _ _ _ _ _ =>
    alike_runCode (World.simulation_twins _) Inspector.alike_silent a code gasLimit

/-- Up to the flush a transaction raises an incarnation twice at most, in the deletion of what was
destroyed and in that of empty accounts. -/
lemma sound_settled (h : m.context.world.Sound (n + 2)) (intrinsicGas : Nat) :
    ((guarded (.state ∘ .cache) (fun _ => true) (settle .silent intrinsicGas)).run
      m).2.context.world.Sound n :=
  sound_of_leads h
    (keeps_guarded_within (fun _ => keeps_settle intrinsicGas) m (.refl _))
    fun _ _ _ _ _ => leads_guarded (World.simulation_twins _) _ _ (World.simulation_twins _)
      (leads_settle Inspector.alike_silent intrinsicGas)

lemma sound_runTransaction (h : m.context.world.Sound (n + 3)) :
    ((runTransaction .silent).run m).2.context.world.Sound n := by
  have hmono (k : Nat) (m : Machine Unit) (hm : m.context.world.Sound (n + k)) :
      m.context.world.Sound n :=
    hm.mono (n.le_add_right k)
  suffices hends : Ends (fun m => m.context.world.Sound n) (fun _ _ => True)
      (runTransaction .silent) m from hends.1
  refine .get_bind ?_
  refine .bind (.of_end (keeps_require _ m h) (hmono 3)) fun _ m _ h => ?_
  refine .bind (.of_end (keeps_require _ m h) (hmono 3)) fun intrinsicGas m _ h => ?_
  refine .bind (.of_end (sound_settled h intrinsicGas) (hmono 1)) fun settled m _ h => ?_
  refine .bind (.of_end (Context.sound_flush h) (hmono 0)) fun changes m h _ => ?_
  exact .of_keeps (.bind (fun _ hm => hm) fun _ => .pure _) h

lemma sound_transact (h : m.context.world.Sound (n + 3)) (tx : Transaction) :
    ((transact .silent tx).run m).2.context.world.Sound n := by
  have hend := sound_runTransaction (m := m.withTransaction tx) h
  rw [transact_run]
  rcases hrun : (runTransaction .silent).run (m.withTransaction tx) with ⟨_ | _, m₁⟩ <;>
    rw [hrun] at hend <;> exact hend

lemma sound_flush (h : m.context.world.Sound (n + 1)) : (flush.run m).2.context.world.Sound n := by
  have hend : ((onState (onContext Context.flush) : MachineM Failure Unit Changeset).run
      m).2.context.world.Sound n := Context.sound_flush h
  unfold flush
  rw [Program.run_bind]
  rcases hrun : (onState (onContext Context.flush) : MachineM Failure Unit Changeset).run m with
    ⟨_ | _, m₁⟩ <;> rw [hrun] at hend <;> exact hend

namespace Command

/-- Every command keeps the world sound. -/
lemma sound_run (h : m.context.world.Sound (n + 3)) (command : Command) :
    (command.run.run m).2.context.world.Sound n := by
  have hone : m.context.world.Sound (n + 1) := h.mono (by omega)
  have hzero : m.context.world.Sound n := h.mono (by omega)
  cases command with
  | checkpoint => exact hone.serve .checkpoint
  | commit => exact Context.sound_commit hone
  | revert => exact Context.sound_revert hone
  | message request =>
    rw [run, run_discard]
    exact sound_runMessage hzero request
  | code a bytes gasLimit =>
    rw [run, run_discard]
    exact sound_runCode hzero a bytes gasLimit
  | transaction tx =>
    rw [run, run_discard]
    exact sound_transact h tx
  | flush =>
    rw [run, run_discard]
    exact sound_flush hone
  | configure config => exact hzero

/-- So does any number of them, as far as the budget goes. -/
lemma sound_runAll {commands : List Command}
    (h : m.context.world.Sound (n + 3 * commands.length)) :
    (runAll commands m).context.world.Sound n := by
  induction commands generalizing m with
  | nil => exact h
  | cons command rest ih =>
    rw [List.length_cons, Nat.mul_succ, ← Nat.add_assoc] at h
    exact ih (sound_run h command)

/-- Whatever an embedder has a machine do over a store that does not fail, what the world forgets
can be read again, and no record and no incarnation gets lost. -/
theorem lasting_runAll (env : Env) (entries : Std.ExtTreeMap Key Bytes) (kind : CleanKind)
    {commands : List Command} (hlength : commands.length < 2 ^ 62) :
    (runAll commands (start (.ofWorld env (.ofStore { entries } kind)) ())).context.world.Refetchable ∧
      (runAll commands (start (.ofWorld env (.ofStore { entries } kind)) ())).context.world.Lasting := by
  have hfresh : (World.ofStore { entries } kind).Sound (0 + 3 * commands.length) := by
    refine (World.Sound.ofStore entries kind).mono ?_
    unfold Count.max
    omega
  have hsound := sound_runAll (m := start (.ofWorld env (.ofStore { entries } kind)) ()) hfresh
  exact ⟨hsound.refetchable, hsound.lasting⟩

end Command

end Machine

end Evm
