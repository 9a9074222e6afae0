import Evm.Proofs.State.World

/-!
# Reads of the world

What the reading operations give, as functions of the world alone, and when two worlds cannot be
told apart by them. A clean layer that forgets is harmless as long as the store still holds what is
forgotten, which is what `World.Refetchable` asks for; a layer that keeps all asks for nothing.
-/

namespace Evm

/-! ## Tables -/

namespace Table

variable {κ ν : Type} [Ord κ] [Std.TransOrd κ] {t : Table κ ν} {w w' : World}

/-- Refreshing a clean layer is not seen under a key that it recalls. -/
lemma readClean_eq (hstore : w'.store = w.store)
    (hl : (t.cache w).clean.Refreshed (t.stored w.store) (t.cache w').clean) {key : κ}
    (hr : (t.cache w).clean.Recalls (t.stored w.store) key) :
    t.readClean w' key = t.readClean w key := by
  rw [readClean, readClean, hstore]
  exact hl.entry_or hr

lemma read_eq (hstore : w'.store = w.store) {key : κ}
    (hdirty : (t.cache w').dirty[key]? = (t.cache w).dirty[key]?)
    (hl : (t.cache w).clean.Refreshed (t.stored w.store) (t.cache w').clean)
    (hr : (t.cache w).clean.Recalls (t.stored w.store) key) :
    t.read w' key = t.read w key := by
  rw [read, read, hdirty, readClean_eq hstore hl hr]

variable [Std.LawfulEqOrd κ] [DecidableEq κ]

/-- A read followed by a pure function of what was read. -/
lemma load_map_run {α : Type} (ht : t.Steady) (w : World) (key : κ) (f : Option ν → α) :
    ∃ l, (do return f (← t.load key) : WorldM α).run w = ((t.read w key).map f, t.setClean w l) ∧
      w.Refreshed (t.setClean w l) ∧ t.readClean (t.setClean w l) key = t.readClean w key := by
  obtain ⟨l, hrun, hl, hr⟩ := load_run ht.toLawful w key
  refine ⟨l, ?_, ht.setClean hl, hr⟩
  rw [Program.run_bind, hrun]
  cases t.read w key <;> rfl

lemma loadClean_map_run {α : Type} (ht : t.Steady) (w : World) (key : κ) (f : Option ν → α) :
    ∃ l, (do return f (← t.loadClean key) : WorldM α).run w =
        ((t.readClean w key).map f, t.setClean w l) ∧ w.Refreshed (t.setClean w l) := by
  obtain ⟨l, hrun, hl, -⟩ := loadClean_run ht.toLawful w key
  refine ⟨l, ?_, ht.setClean hl⟩
  rw [Program.run_bind, hrun]
  cases t.readClean w key <;> rfl

end Table

/-! ## What reads give -/

namespace World

variable (w : World) (a : Address)

/-- The record that is read of an account. -/
def readAccount : Except StateError (Option Account) := Table.accounts.read w a

/-- The incarnation that is read of an account. -/
def readIncarnation : Except StateError UInt64 := (Table.incarnations.read w a).map (·.getD 0)

/-- The value that is read of a slot. -/
def readSlot (index : Word) : Except StateError Word := do
  let incarnation ← w.readIncarnation a
  (Table.storage.read w ⟨a, incarnation, index⟩).map (·.getD 0)

/-- The value that is read of a slot as of the last flush. -/
def readFlushedSlot (index : Word) : Except StateError Word := do
  let current ← w.readIncarnation a
  let flushed ← (Table.incarnations.readClean w a).map (·.getD 0)
  if current = flushed then (Table.storage.readClean w ⟨a, flushed, index⟩).map (·.getD 0)
  else return 0

/-- The code that is read under a hash. -/
def readCode (hash : Hash) : Except StateError Code :=
  if hash = emptyHash ∨ hash = 0 then return Code.empty
  else (Table.code.read w hash).map (·.getD Code.empty)

/-- The code that is read of an account. -/
def readCodeOf : Except StateError Code := do
  match ← w.readAccount a with
  | some record => w.readCode record.codeHash
  | none => return Code.empty

/-- A pending record is the one that is read. -/
lemma readAccount_of_dirty {w : World} {a : Address} {record? : Option Account}
    (h : w.accounts.dirty[a]? = some record?) : w.readAccount a = .ok record? := by
  change (w.accounts.dirty[a]?).elim _ _ = _
  rw [h]
  rfl

/-- So is pending code. -/
lemma readCode_of_dirty {w : World} {hash : Hash} {code : Code}
    (hne : ¬(hash = emptyHash ∨ hash = 0)) (h : w.code.dirty[hash]? = some (some code)) :
    w.readCode hash = .ok code := by
  rw [readCode, if_neg hne]
  change Except.map _ ((w.code.dirty[hash]?).elim _ _) = _
  rw [h]
  rfl

lemma account_run : ∃ w', (account a).run w = (w.readAccount a, w') ∧ w.Refreshed w' := by
  obtain ⟨l, hrun, hl, -⟩ := Table.load_run Table.lawful_accounts w a
  exact ⟨_, hrun, Table.steady_accounts.setClean hl⟩

lemma accountOrEmpty_run :
    ∃ w', (accountOrEmpty a).run w = ((w.readAccount a).map (·.getD {}), w') ∧ w.Refreshed w' := by
  obtain ⟨l, hrun, hl, -⟩ := Table.load_map_run Table.steady_accounts w a (·.getD {})
  exact ⟨_, hrun, hl⟩

/-- The record that is given is the one that is read. -/
lemma accountOrEmpty_ok {w w' : World} {a : Address} {record : Account}
    (h : (accountOrEmpty a).run w = (.ok record, w')) :
    w.Refreshed w' ∧ ∃ record?, w.readAccount a = .ok record? ∧ record = record?.getD {} := by
  obtain ⟨w₁, hrun, hw⟩ := accountOrEmpty_run w a
  obtain ⟨hread, rfl⟩ := Prod.mk.inj (hrun.symm.trans h)
  refine ⟨hw, ?_⟩
  cases hr : w.readAccount a with
  | error e =>
    rw [hr] at hread
    cases hread
  | ok record? =>
    rw [hr] at hread
    exact ⟨record?, rfl, (Except.ok.inj hread).symm⟩

lemma exists?_run :
    ∃ w', (exists? a).run w = ((w.readAccount a).map Option.isSome, w') ∧ w.Refreshed w' := by
  obtain ⟨l, hrun, hl, -⟩ := Table.load_map_run Table.steady_accounts w a Option.isSome
  exact ⟨_, hrun, hl⟩

lemma incarnation_run :
    ∃ w', (incarnation a).run w = (w.readIncarnation a, w') ∧ w.Refreshed w' := by
  obtain ⟨l, hrun, hl, -⟩ := Table.load_map_run Table.steady_incarnations w a (·.getD 0)
  exact ⟨_, hrun, hl⟩

lemma slot_run (index : Word) :
    ∃ w', (slot a index).run w = (w.readSlot a index, w') ∧ w.Refreshed w' := by
  obtain ⟨l, hrun, hl, -⟩ := Table.load_map_run Table.steady_incarnations w a (·.getD 0)
  change (incarnation a).run w = (w.readIncarnation a, _) at hrun
  unfold slot readSlot
  cases hi : w.readIncarnation a with
  | error e => exact ⟨_, by rw [Program.run_bind, hrun, hi]; rfl, hl⟩
  | ok i =>
    obtain ⟨l', hrun', hl', -⟩ := Table.load_map_run Table.steady_storage
      (Table.incarnations.setClean w l) ⟨a, i, index⟩ (·.getD 0)
    refine ⟨_, ?_, hl.trans hl'⟩
    rw [Program.run_bind, hrun, hi]
    exact hrun'

lemma flushedSlot_run (index : Word) :
    ∃ w', (flushedSlot a index).run w = (w.readFlushedSlot a index, w') ∧ w.Refreshed w' := by
  obtain ⟨l, hrun, hl, hsame⟩ := Table.load_map_run Table.steady_incarnations w a (·.getD 0)
  change (incarnation a).run w = (w.readIncarnation a, _) at hrun
  unfold flushedSlot readFlushedSlot
  cases hi : w.readIncarnation a with
  | error e => exact ⟨_, by rw [Program.run_bind, hrun, hi]; rfl, hl⟩
  | ok current =>
    obtain ⟨l₁, hrun₁, hl₁, -⟩ := Table.loadClean_run Table.lawful_incarnations
      (Table.incarnations.setClean w l) a
    have h₁ := hl.trans (Table.steady_incarnations.setClean hl₁)
    rw [hsame] at hrun₁
    rw [Program.run_bind_ok (hi ▸ hrun)]
    cases hc : Table.incarnations.readClean w a with
    | error e => exact ⟨_, by rw [Program.run_bind, hrun₁, hc]; rfl, h₁⟩
    | ok flushed =>
      obtain ⟨l₂, hrun₂, hl₂⟩ := Table.loadClean_map_run Table.steady_storage
        (Table.incarnations.setClean (Table.incarnations.setClean w l) l₁)
        ⟨a, flushed.getD 0, index⟩ (·.getD 0)
      rw [Program.run_bind_ok (hc ▸ hrun₁)]
      by_cases heq : current = flushed.getD 0
      · refine ⟨_, ?_, h₁.trans hl₂⟩
        rw [if_pos heq, hrun₂]
        simp only [Except.map, Except.bind, bind, heq, if_true]
        rfl
      · refine ⟨_, ?_, h₁⟩
        rw [if_neg heq]
        simp only [Except.map, Except.bind, bind, heq, if_false]
        rfl

lemma codeOfHash_run (hash : Hash) :
    ∃ w', (codeOfHash hash).run w = (w.readCode hash, w') ∧ w.Refreshed w' := by
  unfold codeOfHash readCode
  split
  · exact ⟨w, rfl, .refl w⟩
  · obtain ⟨l, hrun, hl, -⟩ := Table.load_map_run Table.steady_code w hash (·.getD Code.empty)
    exact ⟨_, hrun, hl⟩

lemma codeOf_run : ∃ w', (codeOf a).run w = (w.readCodeOf a, w') ∧ w.Refreshed w' := by
  obtain ⟨l, hrun, hl, -⟩ := Table.load_run Table.lawful_accounts w a
  change (account a).run w = (w.readAccount a, _) at hrun
  have h := Table.steady_accounts.setClean hl
  unfold codeOf readCodeOf
  cases ha : w.readAccount a with
  | error e => exact ⟨_, by rw [Program.run_bind_error (ha ▸ hrun)]; rfl, h⟩
  | ok record? =>
    rw [Program.run_bind_ok (ha ▸ hrun)]
    cases record? with
    | none => exact ⟨_, rfl, h⟩
    | some record =>
      obtain ⟨w', hrun', hl'⟩ := codeOfHash_run (Table.accounts.setClean w l) record.codeHash
      exact ⟨w', hrun', h.trans hl'⟩

/-! ## Operations that only read -/

section

variable {α : Type}

/-- The operation changes nothing but what the clean layers remember. -/
def Reading (op : WorldM α) : Prop := ∀ w : World, w.Refreshed (op.run w).2

lemma Reading.of_run {op : WorldM α} {r : World → Except StateError α}
    (h : ∀ w, ∃ w', op.run w = (r w, w') ∧ w.Refreshed w') : Reading op := by
  intro w
  obtain ⟨w', hrun, hw⟩ := h w
  rw [hrun]
  exact hw

/-- Reading writes no slot. -/
lemma Reading.keeps_sameSlots {op : WorldM α} (h : Reading op) {w₀ : World} :
    Keeps w₀.SameSlots op :=
  fun w hw => hw.trans (.of_refreshed (h w))

lemma reading_account (a : Address) : Reading (account a) := .of_run fun w => account_run w a

lemma reading_accountOrEmpty (a : Address) : Reading (accountOrEmpty a) :=
  .of_run fun w => accountOrEmpty_run w a

lemma reading_exists? (a : Address) : Reading (exists? a) := .of_run fun w => exists?_run w a

lemma reading_codeOf (a : Address) : Reading (codeOf a) := .of_run fun w => codeOf_run w a

lemma reading_slot (a : Address) (index : Word) : Reading (slot a index) :=
  .of_run fun w => slot_run w a index

lemma reading_flushedSlot (a : Address) (index : Word) : Reading (flushedSlot a index) :=
  .of_run fun w => flushedSlot_run w a index

end

/-! ## When reads agree -/

/-- Whatever the clean layer of accounts may forget, the store still holds. -/
def RecallsAccounts (w : World) : Prop :=
  ∀ a, w.accounts.clean.Recalls (Table.accounts.stored w.store) a

/-- Whatever the clean layers may forget, the store still holds: every record, all code, every
incarnation, and the slots of the incarnations that are current. It does on every machine over a
store that does not fail (`Machine.Command.lasting_runAll`). -/
structure Refetchable (w : World) : Prop where
  accounts : w.RecallsAccounts
  code : ∀ hash, w.code.clean.Recalls (Table.code.stored w.store) hash
  incarnations : ∀ a, w.incarnations.clean.Recalls (Table.incarnations.stored w.store) a
  storage : ∀ a incarnation index, w.readIncarnation a = .ok incarnation →
    w.storage.clean.Recalls (Table.storage.stored w.store) ⟨a, incarnation, index⟩

variable {w} {w' : World} {a}

/-- The record of an account whose pending writes are the same is the same. -/
lemma readAccount_eq (h : w.Continues w') (hw : w.RecallsAccounts)
    (hd : w'.accounts.dirty[a]? = w.accounts.dirty[a]?) : w'.readAccount a = w.readAccount a :=
  Table.read_eq h.store hd h.accounts.clean (hw a)

/-- What was written in a checkpoint reads the same once the checkpoint is closed. -/
lemma readAccount_closed {w₁ w₂ : World} (h₁ : w.checkpoint.Continues w₁) (h₂ : w.Continues w₂)
    (hw : w.RecallsAccounts) (hd : w₂.accounts.dirty = w₁.accounts.dirty) :
    w₂.readAccount a = w₁.readAccount a := by
  have hclean : Table.accounts.readClean w₁ a = Table.accounts.readClean w a :=
    Table.readClean_eq h₁.store h₁.accounts.clean (hw a)
  rw [readAccount, readAccount, Table.read, Table.read, hclean,
    Table.readClean_eq h₂.store h₂.accounts.clean (hw a)]
  simp only [Table.accounts, hd]

lemma RecallsAccounts.continues (hw : w.RecallsAccounts) (h : w.Continues w') :
    w'.RecallsAccounts :=
  fun a => h.store ▸ h.accounts.clean.recalls (hw a)

lemma readIncarnation_eq (h : w.Continues w') (hw : w.Refetchable)
    (hi : w'.incarnations.dirty = w.incarnations.dirty) :
    w'.readIncarnation a = w.readIncarnation a := by
  have hd : w'.incarnations.dirty[a]? = w.incarnations.dirty[a]? := by rw [hi]
  exact congrArg _ (Table.read_eq h.store hd h.incarnations.clean (hw.incarnations a))

/-- Writes do not make the store forget, unless they move on to other incarnations. -/
lemma Refetchable.continues (hw : w.Refetchable) (h : w.Continues w')
    (hi : w'.incarnations.dirty = w.incarnations.dirty) : w'.Refetchable where
  accounts := hw.accounts.continues h
  code hash := h.store ▸ h.code.clean.recalls (hw.code hash)
  incarnations a := h.store ▸ h.incarnations.clean.recalls (hw.incarnations a)
  storage a i index hr :=
    h.store ▸ h.storage.clean.recalls (hw.storage a i index (readIncarnation_eq h hw hi ▸ hr))

/-! ## Answers -/

/-- The answer of the world to an operation. -/
def answer {α : Type} (op : WorldM α) (w : World) : Except StateError α := (op.run w).1

variable (w) (a)

lemma answer_account : answer (account a) w = w.readAccount a := by
  obtain ⟨w', hrun, -⟩ := account_run w a
  rw [answer, hrun]

lemma answer_incarnation : answer (incarnation a) w = w.readIncarnation a := by
  obtain ⟨w', hrun, -⟩ := incarnation_run w a
  rw [answer, hrun]

lemma answer_slot (index : Word) : answer (slot a index) w = w.readSlot a index := by
  obtain ⟨w', hrun, -⟩ := slot_run w a index
  rw [answer, hrun]

lemma answer_flushedSlot (index : Word) :
    answer (flushedSlot a index) w = w.readFlushedSlot a index := by
  obtain ⟨w', hrun, -⟩ := flushedSlot_run w a index
  rw [answer, hrun]

lemma answer_codeOfHash (hash : Hash) : answer (codeOfHash hash) w = w.readCode hash := by
  obtain ⟨w', hrun, -⟩ := codeOfHash_run w hash
  rw [answer, hrun]

lemma answer_codeOf : answer (codeOf a) w = w.readCodeOf a := by
  obtain ⟨w', hrun, -⟩ := codeOf_run w a
  rw [answer, hrun]

end World

end Evm
