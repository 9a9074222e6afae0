import Evm.Proofs.State.Evolution
import Evm.Proofs.State.Requests

/-!
# Records and incarnations last

Committing changes nothing that is read, and a flush changes neither the records of accounts nor
their incarnations: what was pending is remembered or can be read back from the store. That takes
caches and a store from which nothing gets lost, as those of every sound world are
(`World.Lasting`, `World.Sound.lasting`).
-/

namespace Evm

namespace Table

variable {κ ν : Type} [Ord κ] [Std.TransOrd κ] {t : Table κ ν} {w w' : World} {key : κ}

/-- Whatever the clean layer may forget, the store gives something for it. -/
def Answers (t : Table κ ν) (w : World) : Prop :=
  (t.cache w).clean.keepsAll = true ∨ ∀ key e, w.store.get (t.key key) ≠ .error e

/-- A batch makes no read of the store fail. -/
lemma Answers.applied {ops : List BatchOp} (h : t.Answers w)
    (hkeeps : (t.cache w').clean.keepsAll = (t.cache w).clean.keepsAll)
    (hstore : w'.store = ops.foldl Store.apply w.store) : t.Answers w' := by
  rw [Answers, hkeeps, hstore]
  refine h.imp_right fun hanswers key e herror => ?_
  rw [Store.get_foldl_apply] at herror
  cases hget : w.store.get (t.key key) with
  | error e' => exact hanswers key e' hget
  | ok old =>
    rw [hget] at herror
    cases herror

variable [Std.LawfulEqOrd κ] [DecidableEq κ]

/-- A flush is not seen in a table if what was pending is remembered or gets to the store. -/
lemma read_flushed_of_answers (hdirty : (t.cache w').dirty = ∅) {l : CleanLayer κ ν}
    (hclean : (t.cache w').clean = l.insertAll (t.cache w).dirty.toList)
    (hl : (t.cache w).clean.Refreshed (t.stored w.store) l)
    (hr : (t.cache w).clean.Recalls (t.stored w.store) key) (ha : t.Answers w)
    (hstored : ((t.cache w).dirty[key]? = none ∨ ∀ e, w.store.get (t.key key) ≠ .error e) →
      t.stored w'.store key = (t.cache w).dirty[key]?.elim (t.stored w.store key) .ok) :
    t.read w' key = t.read w key ∧ (t.cache w').clean.Recalls (t.stored w'.store) key := by
  refine read_flushed hdirty hclean hl ?_ hr
  rcases ha with hkeeps | hanswers
  · by_cases hpending : (t.cache w).dirty[key]? = none
    · exact .inr (hstored (.inl hpending))
    · exact .inl ⟨hl.keepsAll.trans hkeeps, hpending⟩
  · exact .inr (hstored (.inr (hanswers key)))

end Table

namespace World

variable {w w' : World} {a : Address} {settled D : Address → Prop}

/-! ## Commits -/

/-- A commit of the world commits its caches. -/
lemma commit_caches (h : w.commit = .ok w') :
    w.accounts.commit = .ok w'.accounts ∧ w.incarnations.commit = .ok w'.incarnations ∧
      w.storage.commit = .ok w'.storage := by
  unfold World.commit at h
  cases ha : w.accounts.commit <;> cases hs : w.storage.commit <;> cases hc : w.code.commit <;>
    cases hi : w.incarnations.commit <;> rw [ha, hs, hc, hi] at h <;> cases h
  exact ⟨rfl, rfl, rfl⟩

lemma readAccount_committed (h : w.commit = .ok w') (a : Address) :
    w'.readAccount a = w.readAccount a := by
  have hclean := Cache.clean_of_commit (commit_caches h).1
  obtain ⟨-, -, hdirty⟩ := Cache.versions_of_commit (commit_caches h).1
  simp only [readAccount, Table.read, Table.readClean, Table.accounts, store_of_commit h, hclean,
    hdirty]

lemma readIncarnation_committed (h : w.commit = .ok w') (a : Address) :
    w'.readIncarnation a = w.readIncarnation a := by
  have hclean := Cache.clean_of_commit (commit_caches h).2.1
  obtain ⟨-, -, hdirty⟩ := Cache.versions_of_commit (commit_caches h).2.1
  simp only [readIncarnation, Table.read, Table.readClean, Table.incarnations, store_of_commit h,
    hclean, hdirty]

/-! ## Flushes -/

/-- What a flush leaves: everything pending has gone to the clean layers and to the store. -/
def FlushedTo (w w' : World) : Prop :=
  ∃ l pruned, w.incarnations.clean.Refreshed (Table.incarnations.stored w.store) l ∧
    w' = { (Table.incarnations.setClean w l).flushed with
      store := (w.pending pruned).ops.foldl Store.apply w.store }

/-- Once flushed, every account has the record that it had before. -/
lemma FlushedTo.readAccount (h : w.FlushedTo w') (hw : w.RecallsAccounts)
    (ha : w.AnswersAccounts) :
    (∀ a, w'.readAccount a = w.readAccount a) ∧ w'.RecallsAccounts ∧ w'.AnswersAccounts := by
  obtain ⟨l, pruned, -, hw'⟩ := h
  have hstore : w'.store = (w.pending pruned).ops.foldl Store.apply w.store := by rw [hw']
  have hclean : w'.accounts.clean = w.accounts.clean.insertAll w.accounts.dirty.toList := by
    rw [hw']
    rfl
  have hdirty : w'.accounts.dirty = ∅ := by
    rw [hw']
    rfl
  have hread (a : Address) : w'.readAccount a = w.readAccount a ∧
      w'.accounts.clean.Recalls (Table.accounts.stored w'.store) a := by
    refine Table.read_flushed_of_answers (t := Table.accounts) hdirty hclean (.refl _) (hw a) ha ?_
    rw [hstore]
    exact Table.stored_accounts_pending w pruned
  have hkeeps : w'.accounts.clean.keepsAll = w.accounts.clean.keepsAll := by
    rw [hclean, CleanLayer.keepsAll_insertAll]
  exact ⟨fun a => (hread a).1, fun a => (hread a).2,
    Table.Answers.applied (t := Table.accounts) ha hkeeps hstore⟩

/-! ## Lasting worlds -/

/-- No record and no incarnation of an account can get lost: whatever the clean layers may forget,
the store still holds and gives. It does on every machine over a store that does not fail
(`Machine.Command.lasting_runAll`). -/
structure Lasting (w : World) : Prop where
  accounts : w.RecallsAccounts
  answersAccounts : w.AnswersAccounts
  incarnations : ∀ a, w.incarnations.clean.Recalls (Table.incarnations.stored w.store) a
  answersIncarnations : Table.incarnations.Answers w
  counted : w.Counted

namespace Lasting

lemma checkpoint (hw : w.Lasting) : w.checkpoint.Lasting :=
  ⟨hw.accounts, hw.answersAccounts, hw.incarnations, hw.answersIncarnations, hw.counted⟩

lemma continues (hw : w.Lasting) (h : w.Continues w') (hcounted : w'.Counted) : w'.Lasting where
  accounts := hw.accounts.continues h
  answersAccounts := hw.answersAccounts.continues h
  incarnations a := h.store ▸ h.incarnations.clean.recalls (hw.incarnations a)
  answersIncarnations := by
    have hkeeps : (Table.incarnations.cache w').clean.keepsAll =
        (Table.incarnations.cache w).clean.keepsAll := h.incarnations.clean.keepsAll
    rw [Table.Answers, hkeeps, h.store]
    exact hw.answersIncarnations
  counted := hcounted

lemma evolves (hw : w.Lasting) (h : w.Evolves settled w') : w'.Lasting :=
  hw.continues h.continues (by rw [Counted, h.incarnations]; exact hw.counted)

lemma deletes (hw : w.Lasting) (h : w.Deletes D w') : w'.Lasting :=
  hw.continues h.continues (h.counted hw.counted)

lemma committed (hw : w.Lasting) (h : w.commit = .ok w') : w'.Lasting := by
  obtain ⟨haccounts, hincarnations, -⟩ := commit_caches h
  have hclean := Cache.clean_of_commit haccounts
  have hclean' := Cache.clean_of_commit hincarnations
  obtain ⟨-, -, hdirty⟩ := Cache.versions_of_commit hincarnations
  refine ⟨fun a => ?_, ?_, fun a => ?_, ?_, ?_⟩
  · rw [store_of_commit h, hclean]
    exact hw.accounts a
  · rw [AnswersAccounts, store_of_commit h, hclean]
    exact hw.answersAccounts
  · rw [store_of_commit h, hclean']
    exact hw.incarnations a
  · have hcache : (Table.incarnations.cache w').clean = (Table.incarnations.cache w).clean := hclean'
    rw [Table.Answers, store_of_commit h, hcache]
    exact hw.answersIncarnations
  · rw [Counted, hdirty]
    exact hw.counted

end Lasting

/-- Once flushed, every account has the record and the incarnation that it had before, and nothing
can get lost after that either. -/
lemma FlushedTo.lasting (h : w.FlushedTo w') (hw : w.Lasting) :
    (∀ a, w'.readAccount a = w.readAccount a) ∧
      (∀ a, w'.readIncarnation a = w.readIncarnation a) ∧ w'.Lasting := by
  obtain ⟨haccount, haccounts, hanswers⟩ := h.readAccount hw.accounts hw.answersAccounts
  obtain ⟨l, pruned, hl, hw'⟩ := h
  have hread (a : Address) : Table.incarnations.read w' a = Table.incarnations.read w a ∧
      w'.incarnations.clean.Recalls (Table.incarnations.stored w'.store) a := by
    subst hw'
    exact Table.read_flushed_of_answers (t := Table.incarnations) rfl rfl hl (hw.incarnations a)
      hw.answersIncarnations (Table.stored_incarnations_pending w pruned (hw.counted a))
  subst hw'
  refine ⟨haccount, fun a => congrArg _ (hread a).1, haccounts, hanswers, fun a => (hread a).2, ?_,
    fun a hnone => ?_⟩
  · refine Table.Answers.applied (t := Table.incarnations) hw.answersIncarnations ?_ rfl
    exact (CleanLayer.keepsAll_insertAll _ _).trans hl.keepsAll
  · exact nomatch Std.ExtTreeMap.getElem?_empty.symm.trans hnone

/-- Nothing gets lost from a sound world. -/
lemma Sound.lasting {spare : Nat} (h : w.Sound spare) : w.Lasting := by
  have hw := h.refetchable
  obtain ⟨_, _, _, _, ⟨htwins, -⟩, -⟩ := h
  have ho := htwins.orderly
  refine ⟨hw.accounts, .inr fun a => Store.get_of_faultless ho.faultless _, hw.incarnations,
    .inr fun a => Store.get_of_faultless ho.faultless _, fun a hnone => ?_⟩
  obtain ⟨n, flushed?, hsome, -⟩ := ho.incarnations _ List.mem_cons_self a none hnone
  cases hsome

/-- Nothing gets lost from a reachable world. -/
lemma Reachable.lasting (h : w.Reachable) : w.Lasting := h.like.lasting

/-- The records of a reachable world can be read from the store. -/
lemma Reachable.answersAccounts (h : w.Reachable) : w.AnswersAccounts :=
  h.lasting.answersAccounts

end World

end Evm
