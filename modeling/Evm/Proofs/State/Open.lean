import Evm.Proofs.State.Flush

/-!
# Open checkpoints of a world

The caches of a world open and close their checkpoints together, reads and writes open and close
none, and a flush is refused while there are any.
-/

namespace Evm

/-! ## Caches -/

namespace Cache

variable {κ ν : Type} [Ord κ] [Std.TransOrd κ] {c : Cache κ ν} {n : Nat}

/-- An open checkpoint can be committed. -/
lemma commit_of_depth (h : c.depth = n + 1) : ∃ c', c.commit = .ok c' ∧ c'.depth = n := by
  obtain ⟨clean, dirty, diffs⟩ := c
  rcases diffs with _ | ⟨diff, _ | ⟨parent, below⟩⟩
  · cases h
  · exact ⟨_, rfl, Nat.succ.inj h⟩
  · exact ⟨_, rfl, Nat.succ.inj h⟩

/-- An open checkpoint can be reverted. -/
lemma revert_of_depth (h : c.depth = n + 1) : ∃ c', c.revert = .ok c' ∧ c'.depth = n := by
  obtain ⟨clean, dirty, diffs⟩ := c
  cases diffs with
  | nil => cases h
  | cons diff below => exact ⟨_, rfl, Nat.succ.inj h⟩

/-- Without an open checkpoint there is nothing to commit or revert. -/
lemma commit_of_closed (h : c.depth = 0) : c.commit = .error .noCheckpoint := by
  have hdiffs : c.diffs = [] := List.length_eq_zero_iff.1 h
  rw [commit, hdiffs]

lemma revert_of_closed (h : c.depth = 0) : c.revert = .error .noCheckpoint := by
  have hdiffs : c.diffs = [] := List.length_eq_zero_iff.1 h
  rw [revert, hdiffs]

lemma Continues.depth {ε : Type} {stored : κ → Except ε (Option ν)} {c' : Cache κ ν}
    (h : c.Continues stored c') : c'.depth = c.depth := by
  rw [← length_saved, h.saved, length_saved]

end Cache

/-! ## Worlds -/

namespace World

/-- All caches have that number of open checkpoints. -/
structure Open (n : Nat) (w : World) : Prop where
  accounts : w.accounts.depth = n
  storage : w.storage.depth = n
  code : w.code.depth = n
  incarnations : w.incarnations.depth = n

variable {w w' : World} {n : Nat}

namespace Open

lemma ofStore (store : Store) (kind : CleanKind) : (World.ofStore store kind).Open 0 :=
  ⟨rfl, rfl, rfl, rfl⟩

lemma continues (h : w.Open n) (hw : w.Continues w') : w'.Open n :=
  ⟨hw.accounts.depth.trans h.accounts, hw.storage.depth.trans h.storage,
    hw.code.depth.trans h.code, hw.incarnations.depth.trans h.incarnations⟩

lemma checkpoint (h : w.Open n) : w.checkpoint.Open (n + 1) :=
  ⟨congrArg (· + 1) h.accounts, congrArg (· + 1) h.storage, congrArg (· + 1) h.code,
    congrArg (· + 1) h.incarnations⟩

lemma commit (h : w.Open (n + 1)) : ∃ w', w.commit = .ok w' ∧ w'.Open n := by
  obtain ⟨accounts, ha, hac⟩ := Cache.commit_of_depth h.accounts
  obtain ⟨storage, hs, hsc⟩ := Cache.commit_of_depth h.storage
  obtain ⟨code, hc, hcc⟩ := Cache.commit_of_depth h.code
  obtain ⟨incarnations, hi, hic⟩ := Cache.commit_of_depth h.incarnations
  refine ⟨{ w with accounts, storage, code, incarnations }, ?_, hac, hsc, hcc, hic⟩
  unfold World.commit
  rw [ha, hs, hc, hi]
  rfl

lemma revert (h : w.Open (n + 1)) : ∃ w', w.revert = .ok w' ∧ w'.Open n := by
  obtain ⟨accounts, ha, hac⟩ := Cache.revert_of_depth h.accounts
  obtain ⟨storage, hs, hsc⟩ := Cache.revert_of_depth h.storage
  obtain ⟨code, hc, hcc⟩ := Cache.revert_of_depth h.code
  obtain ⟨incarnations, hi, hic⟩ := Cache.revert_of_depth h.incarnations
  refine ⟨{ w with accounts, storage, code, incarnations }, ?_, hac, hsc, hcc, hic⟩
  unfold World.revert
  rw [ha, hs, hc, hi]
  rfl

lemma closed (h : w.Open 0) : w.Closed :=
  ⟨List.length_eq_zero_iff.1 h.accounts, List.length_eq_zero_iff.1 h.storage,
    List.length_eq_zero_iff.1 h.code, List.length_eq_zero_iff.1 h.incarnations⟩

end Open

lemma commit_of_closed (h : w.Closed) : w.commit = .error .noCheckpoint := by
  unfold World.commit
  rw [Cache.commit_of_closed (congrArg List.length h.accounts)]
  rfl

lemma revert_of_closed (h : w.Closed) : w.revert = .error .noCheckpoint := by
  unfold World.revert
  rw [Cache.revert_of_closed (congrArg List.length h.accounts)]
  rfl

lemma store_of_commit (h : w.commit = .ok w') : w'.store = w.store := by
  unfold World.commit at h
  cases ha : w.accounts.commit <;> cases hs : w.storage.commit <;> cases hc : w.code.commit <;>
    cases hi : w.incarnations.commit <;> rw [ha, hs, hc, hi] at h <;> cases h
  rfl

lemma store_of_revert (h : w.revert = .ok w') : w'.store = w.store := by
  unfold World.revert at h
  cases ha : w.accounts.revert <;> cases hs : w.storage.revert <;> cases hc : w.code.revert <;>
    cases hi : w.incarnations.revert <;> rw [ha, hs, hc, hi] at h <;> cases h
  rfl

/-- With open checkpoints nothing is taken from the caches. -/
lemma prepareFlush_of_open (h : w.Open (n + 1)) :
    prepareFlush.run w = (.error (.cache (.openCheckpoints (n + 1))), w) := by
  have hdepth : w.depth = n + 1 := h.accounts
  unfold prepareFlush
  rw [Program.run_bind_ok (Program.run_get _), hdepth, if_pos n.succ_pos]
  rfl

/-- With open checkpoints a flush is refused. -/
lemma flush_of_open (h : w.Open (n + 1)) :
    flush.run w = (.error (.cache (.openCheckpoints (n + 1))), w) := by
  unfold flush
  exact Program.run_bind_error (prepareFlush_of_open h)

/-- Taking everything pending opens and closes no checkpoint. -/
lemma keeps_prepareFlush : Keeps (Open n) prepareFlush := by
  intro w h
  cases n with
  | succ n =>
    rw [prepareFlush_of_open h]
    exact h
  | zero =>
    obtain ⟨r, l, hrun, -, -⟩ := superseded_run w w.latest
    rw [prepareFlush_run h.closed, hrun]
    cases r with
    | error e => exact ⟨h.accounts, h.storage, h.code, h.incarnations⟩
    | ok pruned => exact ⟨h.accounts, h.storage, h.code, h.incarnations⟩

lemma keeps_writeBatch (ops : List BatchOp) : Keeps (Open n) (writeBatch ops) := by
  refine .bind .get fun w => ?_
  split
  · exact .throw _
  · exact .modify fun w h => ⟨h.accounts, h.storage, h.code, h.incarnations⟩

end World

end Evm
