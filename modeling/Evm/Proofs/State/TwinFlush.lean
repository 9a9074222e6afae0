import Evm.Proofs.State.Twins

/-!
# Twins after a flush

A flush of a world in good order cannot fail once the checkpoints are closed: every incarnation that
is pending takes the place of one that can be read. Twins write the same batch and are twins again.
The incarnations that are over afterwards are those that the account has left behind: what is left
of the budget does not suffice to come round to them (`Budget.flushed`).
-/

namespace Evm

namespace Store

variable {s s' : Store} {a : Address} {n : UInt64}

/-- To come from the incarnation of one store to another is to come to that of a second store first,
if that is not too far. -/
lemma age_eq_add (h : s'.age a n + s.age a (s'.incarnation a) < 2 ^ 64) :
    s.age a n = s'.age a n + s.age a (s'.incarnation a) := by
  have hadd : n - s.incarnation a = n - s'.incarnation a + (s'.incarnation a - s.incarnation a) := by
    rw [UInt64.sub_eq_add_neg (s'.incarnation a), ← UInt64.add_assoc, UInt64.sub_add_cancel,
      ← UInt64.sub_eq_add_neg]
  rw [age, hadd, UInt64.toNat_add]
  exact Nat.mod_eq_of_lt h

lemma eq_of_age_eq_zero (h : s.age a n = 0) : n = s.incarnation a := by
  have hsub : n - s.incarnation a = 0 := UInt64.toNat_inj.1 h
  rw [← UInt64.sub_add_cancel n (s.incarnation a), hsub, UInt64.zero_add]

end Store

/-- What is left of a budget once the latest incarnations are in the store. -/
def Budget.flushed (budget : Budget) (s s' : Store) : Budget where
  used _ := 0
  left a := budget.left a - s.age a (s'.incarnation a)
  used_le _ := Nat.zero_le _
  left_lt a := (Nat.sub_le _ _).trans_lt (budget.left_lt a)

/-! ## Clean layers -/

namespace CleanLayer

variable {κ ν ε : Type} [Ord κ] [Std.TransOrd κ] [Std.LawfulEqOrd κ]
  {stored stored' : κ → Except ε (Option ν)} {l : CleanLayer κ ν} {key : κ}

/-- A layer that mirrors the store still does when it is told what is written to the store. -/
lemma Mirrors.insertAll (h : l.Mirrors stored key) {dirty : Std.ExtTreeMap κ (Option ν)}
    (hstored : stored' key = dirty[key]?.elim (stored key) .ok) :
    (l.insertAll dirty.toList).Mirrors stored' key := by
  intro e he
  have hor := peek?_insertAll_toList he
  cases hd : dirty[key]? with
  | some pending =>
    rw [hd] at hor hstored
    exact hstored.trans (congrArg Except.ok (Option.some.inj hor))
  | none =>
    rw [hd] at hor hstored
    exact hstored.trans (h e hor)

end CleanLayer

namespace World

variable {budget : Budget} {w w' : World}

/-! ## Incarnations that come to an end -/

/-- If the flushed incarnations can be read, those that are lower than the latest are found. -/
lemma supersededOf_ok {latest : List (Address × UInt64)}
    (h : ∀ e ∈ latest, ∃ flushed?, Table.incarnations.readClean w e.1 = .ok flushed?) :
    ∃ pruned, w.supersededOf latest = .ok pruned ∧ ∀ a n, (a, n) ∈ pruned ↔
      ∃ m flushed?, (a, m) ∈ latest ∧ Table.incarnations.readClean w a = .ok flushed? ∧
        flushed?.getD 0 = n ∧ n < m := by
  induction latest with
  | nil =>
    refine ⟨[], rfl, fun a n => ⟨fun hmem => absurd hmem List.not_mem_nil, ?_⟩⟩
    rintro ⟨m, flushed?, hmem, -⟩
    exact absurd hmem List.not_mem_nil
  | cons e latest ih =>
    obtain ⟨b, k⟩ := e
    obtain ⟨flushed?, hb⟩ := h (b, k) List.mem_cons_self
    obtain ⟨others, hothers, hmem⟩ := ih fun e he => h e (List.mem_cons_of_mem _ he)
    have hrun : w.supersededOf ((b, k) :: latest) =
        .ok (if flushed?.getD 0 < k then (b, flushed?.getD 0) :: others else others) := by
      rw [supersededOf, hb, hothers]
      rfl
    refine ⟨_, hrun, fun a n => ?_⟩
    have hhead : (a, n) = (b, flushed?.getD 0) ∧ flushed?.getD 0 < k ↔
        ∃ m f?, (a, m) = (b, k) ∧ Table.incarnations.readClean w a = .ok f? ∧
          f?.getD 0 = n ∧ n < m := by
      constructor
      · rintro ⟨heq, hlt⟩
        obtain ⟨rfl, rfl⟩ := Prod.mk.inj heq
        exact ⟨k, flushed?, rfl, hb, rfl, hlt⟩
      · rintro ⟨m, f?, heq, hread, rfl, hlt⟩
        obtain ⟨rfl, rfl⟩ := Prod.mk.inj heq
        obtain rfl : flushed? = f? := Except.ok.inj (hb.symm.trans hread)
        exact ⟨rfl, hlt⟩
    have hcons : (a, n) ∈ (if flushed?.getD 0 < k then (b, flushed?.getD 0) :: others else others) ↔
        ((a, n) = (b, flushed?.getD 0) ∧ flushed?.getD 0 < k) ∨ (a, n) ∈ others := by
      split
      · rename_i hlt
        rw [List.mem_cons]
        exact or_congr_left ⟨fun heq => ⟨heq, hlt⟩, And.left⟩
      · rename_i hlt
        exact ⟨.inr, fun hor => hor.resolve_left fun hand => hlt hand.2⟩
    rw [hcons, hhead, hmem]
    constructor
    · rintro (⟨m, f?, heq, hrest⟩ | ⟨m, f?, hin, hrest⟩)
      · exact ⟨m, f?, heq ▸ List.mem_cons_self, hrest⟩
      · exact ⟨m, f?, List.mem_cons_of_mem _ hin, hrest⟩
    · rintro ⟨m, f?, hin, hrest⟩
      rcases List.mem_cons.1 hin with heq | hin
      · exact .inl ⟨m, f?, heq, hrest⟩
      · exact .inr ⟨m, f?, hin, hrest⟩

lemma mem_latest {a : Address} {n : UInt64} :
    (a, n) ∈ w.latest ↔ ∃ e, w.incarnations.dirty[a]? = some e ∧ e.getD 0 = n := by
  rw [latest, List.mem_map]
  constructor
  · rintro ⟨⟨b, e⟩, hmem, heq⟩
    obtain ⟨rfl, rfl⟩ := Prod.mk.inj heq
    exact ⟨e, Std.ExtTreeMap.mem_toList_iff_getElem?_eq_some.1 hmem, rfl⟩
  · rintro ⟨e, he, rfl⟩
    exact ⟨(a, e), Std.ExtTreeMap.mem_toList_iff_getElem?_eq_some.2 he, rfl⟩

/-- The incarnations whose slots a flush removes: those that the store holds, where a later one is
pending. -/
def Prunes (w : World) (a : Address) (n : UInt64) : Prop :=
  ∃ m flushed?, w.incarnations.dirty[a]? = some (some m) ∧
    Table.incarnations.stored w.store a = .ok flushed? ∧ flushed?.getD 0 = n ∧ n < m

/-- In good order the incarnations that come to an end are found. -/
lemma superseded_ok (ho : w.Orderly budget) (hm : w.Mirrors budget) :
    ∃ pruned l, (superseded w.latest).run w = (.ok pruned, Table.incarnations.setClean w l) ∧
      w.supersededOf w.latest = .ok pruned ∧
      w.incarnations.clean.Refreshed (Table.incarnations.stored w.store) l ∧
      ∀ a n, (a, n) ∈ pruned ↔ w.Prunes a n := by
  obtain ⟨r, l, hrun, hl, hr⟩ := superseded_run w w.latest
  have hreadable : ∀ e ∈ w.latest, ∃ flushed?,
      Table.incarnations.readClean w e.1 = .ok flushed? := by
    intro e he
    obtain ⟨pending, hd, -⟩ := mem_latest.1 he
    obtain ⟨-, flushed?, -, hstored, -⟩ := ho.incarnations _ List.mem_cons_self e.1 pending hd
    exact ⟨flushed?, (Table.readClean_of_mirrors (hm.incarnations e.1)).trans hstored⟩
  obtain ⟨pruned, hpruned, hmem⟩ := supersededOf_ok hreadable
  refine ⟨pruned, l, ?_, hpruned, hl, fun a n => ?_⟩
  · rw [hrun, hr fun a => .inr (hm.incarnations a), hpruned]
  · rw [hmem, Prunes]
    refine exists_congr fun m => exists_congr fun flushed? => ?_
    rw [Table.readClean_of_mirrors (hm.incarnations a), mem_latest]
    refine and_congr_left fun hrest => ⟨?_, fun hd => ⟨some m, hd, rfl⟩⟩
    rintro ⟨e, hd, rfl⟩
    obtain ⟨k, -, rfl, -⟩ := ho.incarnations _ List.mem_cons_self a e hd
    exact hd

/-! ## The store after a flush -/

/-- The store once everything pending is written. -/
def storeAfter (w : World) (pruned : List (Address × UInt64)) : Store :=
  (w.pending pruned).ops.foldl Store.apply w.store

/-- The world once everything pending is written. -/
def after (w : World) (l : CleanLayer Address UInt64) (pruned : List (Address × UInt64)) : World :=
  { (Table.incarnations.setClean w l).flushed with store := w.storeAfter pruned }

/-- What is pending can be taken and written to the store, and that leads to the second world. -/
def Flushes (w : World) (pending : Pending) (w' : World) : Prop :=
  ∃ w₁, prepareFlush.run w = (.ok pending, w₁) ∧ (writeBatch pending.ops).run w₁ = (.ok (), w')

lemma Flushes.flush {pending : Pending} (h : w.Flushes pending w') :
    flush.run w = (.ok pending.changes, w') := by
  obtain ⟨w₁, hprepare, hwrite⟩ := h
  unfold World.flush
  rw [Program.run_bind_ok hprepare, Program.run_bind_ok hwrite]
  rfl

/-- In good order and without open checkpoints a flush succeeds. -/
lemma flush_run (ho : w.Orderly budget) (hm : w.Mirrors budget) (hc : w.Closed) :
    ∃ pruned l, w.Flushes (w.pending pruned) (w.after l pruned) ∧
      w.supersededOf w.latest = .ok pruned ∧
      w.incarnations.clean.Refreshed (Table.incarnations.stored w.store) l ∧
      ∀ a n, (a, n) ∈ pruned ↔ w.Prunes a n := by
  obtain ⟨pruned, l, hrun, hpruned, hl, hmem⟩ := superseded_ok ho hm
  have hprepare : prepareFlush.run w =
      (.ok (w.pending pruned), (Table.incarnations.setClean w l).flushed) := by
    rw [prepareFlush_run hc, hrun]
  have hwrite : (writeBatch (w.pending pruned).ops).run (Table.incarnations.setClean w l).flushed =
      (.ok (), w.after l pruned) := by
    have hstore : (Table.incarnations.setClean w l).flushed.store = w.store := rfl
    unfold writeBatch
    rw [Program.run_bind_ok (Program.run_get _), hstore, Store.batch_of_faultless ho.faultless]
    rfl
  exact ⟨pruned, l, ⟨_, hprepare, hwrite⟩, hpruned, hl, hmem⟩

/-- A slot that is left out stays in the store as it is. -/
lemma stored_slot_skipped {pruned : List (Address × UInt64)} {key : SlotKey}
    (hkept : (key.address, key.incarnation) ∉ pruned)
    (hover : isOver w.incarnations.dirty key = true) :
    Table.storage.stored (w.storeAfter pruned) key = Table.storage.stored w.store key := by
  have hupdate (old : Option Bytes) : (w.pending pruned).ops.foldl
      (BatchOp.update (Table.storage.key key)) old =
        (none : Option (Option Word)).elim old
          (Option.map fun value => (Rlp.encodeNat value.toNat).toArray) := by
    refine (w.update_slot pruned old key).trans ?_
    rw [if_neg hkept, hover, if_pos rfl]
    rfl
  exact Table.stored_foldl_apply _ hupdate nofun (.inl rfl)

section

variable (ho : w.Orderly budget) (pruned : List (Address × UInt64))

include ho

lemma stored_account_after (a : Address) :
    Table.accounts.stored (w.storeAfter pruned) a =
      w.accounts.dirty[a]?.elim (Table.accounts.stored w.store a) .ok :=
  Table.stored_accounts_pending w pruned (.inr (Store.get_of_faultless ho.faultless _))

lemma stored_code_after (hash : Hash) :
    Table.code.stored (w.storeAfter pruned) hash =
      w.code.dirty[hash]?.elim (Table.code.stored w.store hash) .ok :=
  Table.stored_code_pending w pruned
    (fun e he => ho.code _ List.mem_cons_self hash e he)
    (.inr (Store.get_of_faultless ho.faultless _))

lemma stored_incarnation_after (a : Address) :
    Table.incarnations.stored (w.storeAfter pruned) a =
      w.incarnations.dirty[a]?.elim (Table.incarnations.stored w.store a) .ok := by
  refine Table.stored_incarnations_pending w pruned (fun hnone => ?_)
    (.inr (Store.get_of_faultless ho.faultless _))
  obtain ⟨n, -, hsome, -⟩ := ho.incarnations _ List.mem_cons_self a none hnone
  cases hsome

end

/-- The latest incarnations are in the store then. -/
lemma incarnation_after (ho : w.Orderly budget) (pruned : List (Address × UInt64)) (a : Address) :
    (w.storeAfter pruned).incarnation a = incarnationIn w.store w.incarnations.dirty a := by
  unfold Store.incarnation incarnationIn
  rw [stored_incarnation_after ho]
  cases w.incarnations.dirty[a]? with
  | none => rfl
  | some e => cases e <;> rfl

/-! ## Twins -/

/-- Nothing is pending. -/
structure Settled (w : World) : Prop where
  accounts : w.accounts.dirty = ∅
  storage : w.storage.dirty = ∅
  code : w.code.dirty = ∅
  incarnations : w.incarnations.dirty = ∅

lemma versions_of_settled {κ ν : Type} [Ord κ] [Std.TransOrd κ] {c : Cache κ ν}
    (hdirty : c.dirty = ∅) (hdiffs : c.diffs = []) : c.versions = [∅] := by
  rw [Cache.versions, Cache.saved, hdirty, hdiffs]
  rfl

lemma allVersions_of_settled {κ ν : Type} [Ord κ] [Std.TransOrd κ] {c : Cache κ ν}
    (hdirty : c.dirty = ∅) (hdiffs : c.diffs = []) (P : κ → Option ν → Prop) :
    c.AllVersions P := by
  intro pending hmem key e he
  rw [versions_of_settled hdirty hdiffs, List.mem_singleton] at hmem
  rw [hmem, Std.ExtTreeMap.getElem?_empty] at he
  cases he

/-- Where nothing is pending, there is nothing that might be out of order. -/
lemma Settled.orderly (hs : w.Settled) (hc : w.Closed) (h : w.store.faults = {}) :
    w.Orderly budget where
  faultless := h
  incarnations := allVersions_of_settled hs.incarnations hc.incarnations _
  code := allVersions_of_settled hs.code hc.code _
  slots pending hmem := by
    rw [versions, versions_of_settled hs.storage hc.storage,
      versions_of_settled hs.incarnations hc.incarnations] at hmem
    obtain rfl := List.mem_singleton.1 hmem
    intro key e he
    rw [Std.ExtTreeMap.getElem?_empty] at he
    cases he

lemma Closed.after (hc : w.Closed) (l : CleanLayer Address UInt64)
    (pruned : List (Address × UInt64)) : (w.after l pruned).Closed :=
  ⟨hc.accounts, hc.storage, hc.code, hc.incarnations⟩

lemma settled_after (w : World) (l : CleanLayer Address UInt64)
    (pruned : List (Address × UInt64)) : (w.after l pruned).Settled :=
  ⟨rfl, rfl, rfl, rfl⟩

lemma Orderly.after (ho : w.Orderly budget) (hc : w.Closed) (l : CleanLayer Address UInt64)
    (pruned : List (Address × UInt64)) :
    (w.after l pruned).Orderly (budget.flushed w.store (w.storeAfter pruned)) :=
  (settled_after w l pruned).orderly (hc.after l pruned)
    ((Store.faults_foldl_apply _ _).trans ho.faultless)

/-- Within the new budget incarnations are as old as they were, counted from the latest one. -/
lemma age_after (ho : w.Orderly budget) (pruned : List (Address × UInt64)) {a : Address} {n : UInt64}
    (h : (w.storeAfter pruned).age a n ≤
      (budget.flushed w.store (w.storeAfter pruned)).left a) :
    w.store.age a n = (w.storeAfter pruned).age a n +
        w.store.age a (incarnationIn w.store w.incarnations.dirty a) ∧
      w.store.age a n ≤ budget.left a := by
  have hused := ho.age_incarnationIn List.mem_cons_self a
  have hle := budget.used_le a
  have hlt := budget.left_lt a
  change _ ≤ budget.left a - w.store.age a _ at h
  rw [incarnation_after ho] at h
  have hlt : (w.storeAfter pruned).age a n +
      w.store.age a ((w.storeAfter pruned).incarnation a) < 2 ^ 64 := by
    rw [incarnation_after ho]
    omega
  have hadd := Store.age_eq_add hlt
  rw [incarnation_after ho] at hadd
  exact ⟨hadd, by omega⟩

/-- The slots of an incarnation within the new budget are not removed. -/
lemma not_prunes_after (ho : w.Orderly budget) (pruned : List (Address × UInt64)) {a : Address}
    {n : UInt64} (h : (w.storeAfter pruned).age a n ≤
      (budget.flushed w.store (w.storeAfter pruned)).left a) : ¬w.Prunes a n := by
  rintro ⟨m, flushed?, hd, hstored, rfl, hlt⟩
  obtain ⟨hadd, -⟩ := age_after ho pruned h
  have hcurrent : incarnationIn w.store w.incarnations.dirty a = m := by
    rw [incarnationIn, hd]
    rfl
  rw [← Store.incarnation_of_stored hstored] at hadd hlt
  rw [hcurrent, Store.age_incarnation] at hadd
  obtain rfl := Store.eq_of_age_eq_zero (Nat.eq_zero_of_add_eq_zero_left hadd.symm)
  exact UInt64.lt_irrefl _ hlt

/-- Nor are pending ones left out. -/
lemma not_isOver_after (ho : w.Orderly budget) (pruned : List (Address × UInt64)) {key : SlotKey}
    {e : Option Word} (hd : w.storage.dirty[key]? = some e)
    (h : (w.storeAfter pruned).age key.address key.incarnation ≤
      (budget.flushed w.store (w.storeAfter pruned)).left key.address) :
    isOver w.incarnations.dirty key = false := by
  obtain ⟨hadd, -⟩ := age_after ho pruned h
  have hle := ho.slots _ List.mem_cons_self key e hd
  dsimp only at hle
  have hzero : (w.storeAfter pruned).age key.address key.incarnation = 0 := by omega
  have hcurrent := Store.eq_of_age_eq_zero hzero
  rw [incarnation_after ho, incarnationIn] at hcurrent
  rw [isOver]
  cases hi : w.incarnations.dirty[key.address]? with
  | none => rfl
  | some m? =>
    rw [hi] at hcurrent
    rw [Option.any_some, hcurrent]
    exact decide_eq_false (UInt64.lt_irrefl _)

/-- Within the new budget, the slots that are pending get to the store. -/
lemma stored_slot_after (ho : w.Orderly budget) {pruned : List (Address × UInt64)}
    (hpruned : ∀ a n, (a, n) ∈ pruned ↔ w.Prunes a n) {key : SlotKey}
    (h : (w.storeAfter pruned).age key.address key.incarnation ≤
      (budget.flushed w.store (w.storeAfter pruned)).left key.address) :
    Table.storage.stored (w.storeAfter pruned) key =
      w.storage.dirty[key]?.elim (Table.storage.stored w.store key) .ok := by
  have hkept : (key.address, key.incarnation) ∉ pruned := fun hmem =>
    not_prunes_after ho pruned h ((hpruned _ _).1 hmem)
  cases hover : isOver w.incarnations.dirty key with
  | false =>
    exact Table.stored_storage_pending w pruned hkept hover
      (.inr (Store.get_of_faultless ho.faultless _))
  | true =>
    -- The slot is not pending, so the flush leaves it in the store as it is.
    have hnone : w.storage.dirty[key]? = none :=
      Option.eq_none_iff_forall_ne_some.2 fun e he =>
        Bool.false_ne_true ((not_isOver_after ho pruned he h).symm.trans hover)
    rw [hnone]
    exact stored_slot_skipped hkept hover

/-- The clean layers still mirror the store, but for the slots that were left out or removed. -/
lemma Mirrors.after (ho : w.Orderly budget) (hm : w.Mirrors budget) {l : CleanLayer Address UInt64}
    (hl : w.incarnations.clean.Refreshed (Table.incarnations.stored w.store) l)
    {pruned : List (Address × UInt64)} (hpruned : ∀ a n, (a, n) ∈ pruned ↔ w.Prunes a n) :
    (w.after l pruned).Mirrors (budget.flushed w.store (w.storeAfter pruned)) where
  accounts a := (hm.accounts a).insertAll (stored_account_after ho pruned a)
  code hash := (hm.code hash).insertAll (stored_code_after ho pruned hash)
  incarnations a :=
    ((hm.incarnations a).refreshed hl).insertAll (stored_incarnation_after ho pruned a)
  storage key hkey :=
    (hm.storage key (age_after ho pruned hkey).2).insertAll (stored_slot_after ho hpruned hkey)

/-- What is pending, apart from what is over, is the same in twins. -/
lemma Twins.pending (h : Twins budget w w') (pruned : List (Address × UInt64)) :
    w.pending pruned = w'.pending pruned := by
  rw [World.pending, World.pending, h.accounts.dirty, h.storage.dirty, h.code.dirty,
    h.incarnations.dirty]

lemma Twins.supersededOf (h : Twins budget w w') :
    w.supersededOf w.latest = w'.supersededOf w'.latest := by
  have hlatest : w.latest = w'.latest := by rw [latest, latest, h.incarnations.dirty]
  rw [hlatest]
  exact (supersededOf_congr fun a => (h.readCleanIncarnation a).symm) _ |>.symm

lemma Twins.symm (h : Twins budget w w') : Twins budget w' w where
  store := h.store.symm
  accounts := ⟨h.accounts.dirty.symm, h.accounts.diffs.symm⟩
  storage := ⟨h.storage.dirty.symm, h.storage.diffs.symm⟩
  code := ⟨h.code.dirty.symm, h.code.diffs.symm⟩
  incarnations := ⟨h.incarnations.dirty.symm, h.incarnations.diffs.symm⟩
  orderly := ⟨h.store ▸ h.orderly.faultless,
    fun pending hmem => h.store ▸ h.orderly.incarnations pending (h.incarnations.versions ▸ hmem),
    fun pending hmem => h.orderly.code pending (h.code.versions ▸ hmem),
    fun pending hmem => h.store ▸ h.orderly.slots pending (by
      rwa [World.versions, h.storage.versions, h.incarnations.versions])⟩
  mirrors := h.mirrors'
  mirrors' := h.mirrors

lemma Closed.twin (hc : w.Closed) (h : Twins budget w w') : w'.Closed :=
  ⟨h.accounts.diffs ▸ hc.accounts, h.storage.diffs ▸ hc.storage, h.code.diffs ▸ hc.code,
    h.incarnations.diffs ▸ hc.incarnations⟩

/-- Twins without open checkpoints write the same and are twins again. -/
theorem Twins.flush (h : Twins budget w w') (hc : w.Closed) :
    ∃ pending w₁ w₁', w.Flushes pending w₁ ∧ w'.Flushes pending w₁' ∧
      Twins (budget.flushed w.store w₁.store) w₁ w₁' ∧ w₁.Closed ∧ w₁.Settled ∧
      ∀ a, w₁.store.incarnation a = incarnationIn w.store w.incarnations.dirty a := by
  obtain ⟨pruned, l, hrun, hpruned, hl, hmem⟩ := flush_run h.orderly h.mirrors hc
  obtain ⟨pruned', l', hrun', hpruned', hl', hmem'⟩ :=
    flush_run h.symm.orderly h.mirrors' (hc.twin h)
  obtain rfl : pruned = pruned' :=
    Except.ok.inj (hpruned.symm.trans (h.supersededOf.trans hpruned'))
  have hstore : w.storeAfter pruned = w'.storeAfter pruned := by
    rw [storeAfter, storeAfter, h.pending, h.store]
  have hbudget : budget.flushed w.store (w.storeAfter pruned) =
      budget.flushed w'.store (w'.storeAfter pruned) := by
    rw [hstore, h.store]
  refine ⟨_, w.after l pruned, w'.after l' pruned, hrun, h.pending pruned ▸ hrun',
    ⟨hstore, ?_, ?_, ?_, ?_, ?_, ?_, ?_⟩, hc.after l pruned, settled_after w l pruned,
    incarnation_after h.orderly pruned⟩
  · exact ⟨rfl, h.accounts.diffs⟩
  · exact ⟨rfl, h.storage.diffs⟩
  · exact ⟨rfl, h.code.diffs⟩
  · exact ⟨rfl, h.incarnations.diffs⟩
  · exact h.orderly.after hc l pruned
  · exact h.mirrors.after h.orderly hl hmem
  · change Mirrors (budget.flushed w.store (w.storeAfter pruned)) _
    rw [hbudget]
    exact h.mirrors'.after h.symm.orderly hl' hmem'

end World

end Evm
