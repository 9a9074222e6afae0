import Evm.Context
import Evm.Proofs.State.Total

/-!
# How records evolve

Whatever is done to the records of accounts between two flushes, short of deleting them, no nonce
goes down and no account loses its code or gets other code (`World.Evolves`). What only moves value
changes neither nonces nor code (`World.Rebalances`), and what deletes accounts changes nothing but
their records and incarnations (`World.Deletes`). Beside that stands which of the pending records
are empty: `World.EmptiesWithin`.
-/

namespace Evm

/-! ## Records -/

namespace Account

/-- No contract can be created there. -/
def isTaken (r : Account) : Bool := r.nonce != 0 || r.hasCode

/-- The nonce has not gone down, and code has stayed. If the account is settled, neither nonce nor
code has changed at all. -/
structure Evolves (settled : Prop) (r r' : Account) : Prop where
  nonce : r.nonce.toNat ≤ r'.nonce.toNat
  code : r.hasCode = true → r'.codeHash = r.codeHash
  settled : settled → r'.nonce = r.nonce ∧ r'.codeHash = r.codeHash

variable {r r' r'' : Account} {settled settled' : Prop}

lemma hasCode_congr (h : r'.codeHash = r.codeHash) : r'.hasCode = r.hasCode := by
  rw [hasCode, hasCode, h]

lemma isTaken_of_nonce (h : r.nonce ≠ 0) : r.isTaken = true := by
  rw [isTaken, bne_iff_ne.2 h, Bool.true_or]

lemma isTaken_of_hasCode (h : r.hasCode = true) : r.isTaken = true := by
  rw [isTaken, h, Bool.or_true]

lemma isTaken_eq_true : r.isTaken = true ↔ r.nonce ≠ 0 ∨ r.hasCode = true := by
  rw [isTaken, Bool.or_eq_true, bne_iff_ne]

namespace Evolves

lemma of_eq (hnonce : r'.nonce = r.nonce) (hcode : r'.codeHash = r.codeHash) :
    r.Evolves settled r' :=
  ⟨(congrArg UInt64.toNat hnonce).ge, fun _ => hcode, fun _ => ⟨hnonce, hcode⟩⟩

lemma refl (r : Account) : r.Evolves settled r := .of_eq rfl rfl

lemma mono (h : r.Evolves settled r') (himp : settled' → settled) : r.Evolves settled' r' :=
  ⟨h.nonce, h.code, fun hs => h.settled (himp hs)⟩

lemma hasCode (h : r.Evolves settled r') (hcode : r.hasCode = true) : r'.hasCode = true :=
  (hasCode_congr (h.code hcode)).trans hcode

lemma trans (h : r.Evolves settled r') (h' : r'.Evolves settled r'') : r.Evolves settled r'' where
  nonce := h.nonce.trans h'.nonce
  code hcode := (h'.code (h.hasCode hcode)).trans (h.code hcode)
  settled hs :=
    ⟨(h'.settled hs).1.trans (h.settled hs).1, (h'.settled hs).2.trans (h.settled hs).2⟩

/-- What is taken stays so. -/
lemma isTaken (h : r.Evolves settled r') (ht : r.isTaken = true) : r'.isTaken = true := by
  rcases isTaken_eq_true.1 ht with hnonce | hcode
  · refine isTaken_of_nonce fun hzero => hnonce ?_
    have hle := h.nonce
    rw [hzero] at hle
    exact UInt64.toNat_inj.1 (Nat.le_zero.1 hle)
  · exact isTaken_of_hasCode (h.hasCode hcode)

end Evolves

end Account

/-- What is pending after a write. -/
lemma Cache.getElem?_dirty_write {κ ν : Type} [Ord κ] [Std.TransOrd κ] [Std.LawfulEqOrd κ]
    [DecidableEq κ] (c : Cache κ ν) (key other : κ) (value : Option ν) :
    (c.write key value).dirty[other]? = if other = key then some value else c.dirty[other]? := by
  rw [Cache.dirty_write, Std.ExtTreeMap.getElem?_insert]
  simp only [Std.LawfulEqOrd.compare_eq_iff_eq, eq_comm (a := key)]

namespace World

/-! ## Reads -/

variable {w w' w'' w₀ : World} {a b : Address} {record record' : Account}

/-- The record that is read of an account, that of an empty one if there is none. -/
def Reads (w : World) (a : Address) (record : Account) : Prop :=
  ∃ record?, w.readAccount a = .ok record? ∧ record = record?.getD {}

namespace Reads

lemma unique (h : w.Reads a record) (h' : w.Reads a record') : record' = record := by
  obtain ⟨record?, hread, rfl⟩ := h
  obtain ⟨record'?, hread', rfl⟩ := h'
  rw [Except.ok.inj (hread'.symm.trans hread)]

lemma map_getD (h : w.Reads a record) : (w.readAccount a).map (·.getD {}) = .ok record := by
  obtain ⟨record?, hread, rfl⟩ := h
  rw [hread]
  rfl

lemma congr (h : w.Reads a record) (heq : w'.readAccount a = w.readAccount a) :
    w'.Reads a record := by
  obtain ⟨record?, hread, hrecord⟩ := h
  exact ⟨record?, heq.trans hread, hrecord⟩

lemma refreshed (h : w.Reads a record) (hw : w.RecallsAccounts) (href : w.Refreshed w') :
    w'.Reads a record :=
  h.congr (href.sameRecords.readAccount hw a)

lemma withAccount_self (w : World) (a : Address) (record : Account) :
    (w.withAccount a (some record)).Reads a record :=
  ⟨some record, by rw [readAccount_withAccount, if_pos rfl], rfl⟩

lemma withAccount_of_ne (h : w.Reads a record) (ne : a ≠ b) (record? : Option Account) :
    (w.withAccount b record?).Reads a record :=
  h.congr (by rw [readAccount_withAccount, if_neg ne])

end Reads

lemma accountOrEmpty_reads (hw : w.RecallsAccounts)
    (h : (accountOrEmpty a).run w = (.ok record, w')) :
    w.Refreshed w' ∧ w.Reads a record ∧ w'.Reads a record :=
  have ⟨href, hread⟩ := accountOrEmpty_ok h
  ⟨href, hread, Reads.refreshed hread hw href⟩

/-! ## Evolution -/

/-- Nothing was flushed in between, no record of an account was lost, and none has changed but as
records evolve. No incarnation was raised. -/
structure Evolves (settled : Address → Prop) (w w' : World) : Prop where
  continues : w.Continues w'
  records : ∀ {a record}, w.Reads a record →
    ∃ record', w'.Reads a record' ∧ record.Evolves (settled a) record'
  incarnations : w'.incarnations.dirty = w.incarnations.dirty

variable {settled settled' : Address → Prop}

namespace Evolves

/-- Where no record has changed. -/
lemma of_reads (h : w.Continues w') (hrecords : ∀ a, w'.readAccount a = w.readAccount a)
    (hincarnations : w'.incarnations.dirty = w.incarnations.dirty) : w.Evolves settled w' :=
  ⟨h, fun hread => ⟨_, hread.congr (hrecords _), .refl _⟩, hincarnations⟩

lemma refl (w : World) : w.Evolves settled w := .of_reads (.refl w) (fun _ => rfl) rfl

lemma trans (h : w.Evolves settled w') (h' : w'.Evolves settled w'') : w.Evolves settled w'' where
  continues := h.continues.trans h'.continues
  records hread := by
    obtain ⟨record', hread', hrecord'⟩ := h.records hread
    obtain ⟨record'', hread'', hrecord''⟩ := h'.records hread'
    exact ⟨record'', hread'', hrecord'.trans hrecord''⟩
  incarnations := h'.incarnations.trans h.incarnations

lemma mono (h : w.Evolves settled w') (himp : ∀ a, settled' a → settled a) :
    w.Evolves settled' w' :=
  ⟨h.continues, fun hread => (h.records hread).imp fun _ h => ⟨h.1, h.2.mono (himp _)⟩,
    h.incarnations⟩

lemma recalls (h : w.Evolves settled w') (hw : w.RecallsAccounts) : w'.RecallsAccounts :=
  hw.continues h.continues

lemma of_sameRecords (hw : w.RecallsAccounts) (h : w.SameRecords w')
    (hincarnations : w'.incarnations.dirty = w.incarnations.dirty) : w.Evolves settled w' :=
  .of_reads h.continues (h.readAccount hw) hincarnations

lemma of_refreshed (hw : w.RecallsAccounts) (h : w.Refreshed w') : w.Evolves settled w' :=
  .of_sameRecords hw h.sameRecords h.incarnations.dirty

/-- Writing a record that has evolved from the one at the start. -/
lemma write (h : w₀.Evolves settled w)
    (hrecord : ∀ record₀, w₀.Reads a record₀ → record₀.Evolves (settled a) record) :
    w₀.Evolves settled (w.withAccount a (some record)) where
  continues := h.continues.trans (continues_withAccount w a _)
  records {b record₀} hread := by
    by_cases heq : b = a
    · subst heq
      exact ⟨record, .withAccount_self w b record, hrecord record₀ hread⟩
    · obtain ⟨record', hread', hrecord'⟩ := h.records hread
      exact ⟨record', hread'.withAccount_of_ne heq _, hrecord'⟩
  incarnations := h.incarnations

/-- Writing a record that has evolved from the one before. -/
lemma put (hread : w.Reads a record) (hrecord : record.Evolves (settled a) record') :
    w.Evolves settled (w.withAccount a (some record')) :=
  (refl w).write fun _ hread₀ => hread₀.unique hread ▸ hrecord

/-- What was done in a checkpoint is done once the checkpoint is committed. -/
lemma committed (hw : w.RecallsAccounts) (h : w.checkpoint.Evolves settled w')
    (hc : w.Continues w'') (hsame : w'.SamePending w'') : w.Evolves settled w'' where
  continues := hc
  records hread := by
    obtain ⟨record', hread', hrecord'⟩ := h.records (hread.congr rfl)
    exact ⟨record', hread'.congr (readAccount_closed h.continues hc hw hsame.accounts), hrecord'⟩
  incarnations := hsame.incarnations.trans h.incarnations

end Evolves

/-- No contract can be created at the address. -/
def Taken (w : World) (a : Address) : Prop := ∃ record, w.Reads a record ∧ record.isTaken = true

/-- The account has sent a transaction: it has a nonce and no code. -/
def Sends (w : World) (a : Address) : Prop :=
  ∃ record, w.Reads a record ∧ record.nonce ≠ 0 ∧ record.hasCode = false

lemma Taken.evolves (ht : w.Taken a) (h : w.Evolves settled w') : w'.Taken a := by
  obtain ⟨record, hread, htaken⟩ := ht
  obtain ⟨record', hread', hrecord'⟩ := h.records hread
  exact ⟨record', hread', hrecord'.isTaken htaken⟩

lemma Reads.isTaken (h : w.Reads a record) (ht : w.Taken a) : record.isTaken = true := by
  obtain ⟨record', hread, htaken⟩ := ht
  rwa [hread.unique h]

lemma Reads.free (h : w.Reads a record) (hfree : ¬w.Taken a) : record.isTaken = false :=
  Bool.eq_false_iff.2 fun ht => hfree ⟨record, h, ht⟩

lemma Sends.taken (h : w.Sends a) : w.Taken a :=
  h.imp fun _ h => ⟨h.1, Account.isTaken_of_nonce h.2.1⟩

lemma Sends.evolves (hs : w.Sends a) (h : w.Evolves settled w') (ha : settled a) : w'.Sends a := by
  obtain ⟨record, hread, hnonce, hcode⟩ := hs
  obtain ⟨record', hread', hrecord'⟩ := h.records hread
  obtain ⟨hnonce', hcode'⟩ := hrecord'.settled ha
  exact ⟨record', hread', hnonce' ▸ hnonce, (Account.hasCode_congr hcode').trans hcode⟩

/-- Such an account has no code that could run. -/
lemma Sends.codeOf_run (hs : w.Sends a) :
    ∃ w', (codeOf a).run w = (.ok Code.empty, w') ∧ w.Refreshed w' := by
  obtain ⟨record, ⟨record?, hread, rfl⟩, -, hcode⟩ := hs
  obtain ⟨w', hrun, href⟩ := World.codeOf_run w a
  refine ⟨w', ?_, href⟩
  rw [hrun, readCodeOf, hread]
  cases record? with
  | none => rfl
  | some record =>
    have hnone : record.codeHash = emptyHash ∨ record.codeHash = 0 := by
      by_contra hsome
      rw [not_or] at hsome
      change record.hasCode = false at hcode
      rw [Account.hasCode, bne_iff_ne.2 hsome.1, bne_iff_ne.2 hsome.2] at hcode
      cases hcode
    change (w.readCode record.codeHash, w') = _
    rw [readCode, if_pos hnone]
    rfl

/-! ## Empty records -/

/-- All pending records that are empty are those of such accounts. -/
def EmptiesWithin (T : Address → Prop) (w : World) : Prop :=
  ∀ a record, w.accounts.dirty[a]? = some (some record) → record.isEmpty = true → T a

namespace EmptiesWithin

variable {T T' : Address → Prop}

lemma mono (h : w.EmptiesWithin T) (himp : ∀ a, T a → T' a) : w.EmptiesWithin T' :=
  fun a record hd he => himp a (h a record hd he)

lemma congr (h : w.EmptiesWithin T) (hd : w'.accounts.dirty = w.accounts.dirty) :
    w'.EmptiesWithin T := by
  rw [EmptiesWithin, hd]
  exact h

lemma withAccount (h : w.EmptiesWithin T) (hT : record.isEmpty = true → T a) :
    (w.withAccount a (some record)).EmptiesWithin T := by
  intro b record' hd hempty
  change (w.accounts.write a (some record)).dirty[b]? = _ at hd
  rw [Cache.getElem?_dirty_write] at hd
  split at hd
  · rename_i heq
    cases hd
    exact heq ▸ hT hempty
  · exact h b record' hd hempty

end EmptiesWithin

/-! ## Moving value -/

/-- Balances have changed and nothing else of records, and no record became empty but those of such
accounts. -/
structure Rebalances (T : Address → Prop) (w w' : World) : Prop where
  evolves : w.Evolves (fun _ => True) w'
  empties : w.EmptiesWithin T → w'.EmptiesWithin T

namespace Rebalances

variable {T : Address → Prop}

lemma refl (w : World) : w.Rebalances T w := ⟨.refl w, id⟩

lemma trans (h : w.Rebalances T w') (h' : w'.Rebalances T w'') : w.Rebalances T w'' :=
  ⟨h.evolves.trans h'.evolves, h'.empties ∘ h.empties⟩

lemma refreshed (hw : w.RecallsAccounts) (h : w.Rebalances T w') (href : w'.Refreshed w'') :
    w.Rebalances T w'' :=
  h.trans ⟨.of_refreshed (h.evolves.recalls hw) href, fun he => he.congr href.accounts.dirty⟩

/-- Writing a record with another balance. -/
lemma put (h : w.Rebalances T w') (hread : w'.Reads a record) (hnonce : record'.nonce = record.nonce)
    (hcode : record'.codeHash = record.codeHash) (hT : T a) :
    w.Rebalances T (w'.withAccount a (some record')) :=
  h.trans ⟨.put hread (.of_eq hnonce hcode), fun he => he.withAccount fun _ => hT⟩

lemma ends_accountOrEmpty (hw : w₀.RecallsAccounts) (h : w₀.Rebalances T w) (a : Address) :
    Ends (w₀.Rebalances T) (fun record w' => w'.Reads a record) (accountOrEmpty a) w := by
  obtain ⟨w', hrun, href⟩ := accountOrEmpty_run w a
  refine .of_run hrun (h.refreshed hw href) fun record hrecord => ?_
  exact (accountOrEmpty_reads (h.evolves.recalls hw) (hrun.trans (by rw [hrecord]))).2.2

lemma ends_putAccount (h : w₀.Rebalances T w) (hread : w.Reads a record)
    (hnonce : record'.nonce = record.nonce) (hcode : record'.codeHash = record.codeHash)
    (hT : T a) : Ends (w₀.Rebalances T) (fun _ _ => True) (putAccount a record') w :=
  .of_run (putAccount_run w a record') (h.put hread hnonce hcode hT) fun _ _ => trivial

end Rebalances

/-! ## Deletions -/

/-- An incarnation that is pending is a number. -/
def Counted (w : World) : Prop := ∀ a : Address, w.incarnations.dirty[a]? ≠ some none

/-- Some accounts were deleted, and no record or incarnation of another account was written. -/
structure Deletes (D : Address → Prop) (w w' : World) : Prop where
  continues : w.Continues w'
  deleted : ∀ {a}, D a → w'.accounts.dirty[a]? = some none
  record : ∀ {a}, ¬D a → w'.accounts.dirty[a]? = w.accounts.dirty[a]?
  incarnation : ∀ {a}, ¬D a → w'.incarnations.dirty[a]? = w.incarnations.dirty[a]?
  counted : w.Counted → w'.Counted

namespace Deletes

variable {D D' : Address → Prop}

lemma of_refreshed (h : w.Refreshed w') : w.Deletes (fun _ => False) w' where
  continues := h.continues
  deleted := False.elim
  record _ := by rw [h.accounts.dirty]
  incarnation _ := by rw [h.incarnations.dirty]
  counted hw := by
    rw [Counted, h.incarnations.dirty]
    exact hw

lemma trans (h : w.Deletes D w') (h' : w'.Deletes D' w'') :
    w.Deletes (fun a => D a ∨ D' a) w'' where
  continues := h.continues.trans h'.continues
  deleted {a} ha := by
    by_cases ha' : D' a
    · exact h'.deleted ha'
    · exact (h'.record ha').trans (h.deleted (ha.resolve_right ha'))
  record ha := (h'.record (not_or.1 ha).2).trans (h.record (not_or.1 ha).1)
  incarnation ha := (h'.incarnation (not_or.1 ha).2).trans (h.incarnation (not_or.1 ha).1)
  counted := h'.counted ∘ h.counted

lemma congr (h : w.Deletes D w') (hD : ∀ a, D a ↔ D' a) : w.Deletes D' w' := by
  rwa [← funext fun a => propext (hD a)]

lemma recalls (h : w.Deletes D w') (hw : w.RecallsAccounts) : w'.RecallsAccounts :=
  hw.continues h.continues

end Deletes

/-- The account has a record, and that is empty. -/
def ReadsEmpty (w : World) (a : Address) : Prop :=
  ∃ record, w.readAccount a = .ok (some record) ∧ record.isEmpty = true

end World

end Evm
