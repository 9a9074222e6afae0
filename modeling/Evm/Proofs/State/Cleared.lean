import Evm.Proofs.State.Lasting

/-!
# Cleared slots

The slots that held something as of the last flush and hold nothing now. `World.cleared` is their
number, and `World.cleared_setSlot` says by how much a write changes it. Everything else that
happens between two flushes leaves the number as it is, or lowers it where a slot cannot be read any
more: a clean layer that forgets must not come upon something else in the store (`World.Truthful`).
-/

namespace Evm

/-! ## Reads that may come to fail -/

/-- The later result is the earlier one, or a failure. -/
def Fades {ε α : Type} (r r' : Except ε α) : Prop := ∀ a, r' = .ok a → r = .ok a

namespace Fades

variable {ε α β : Type} {r r' : Except ε α}

lemma refl (r : Except ε α) : Fades r r := fun _ h => h

lemma bind {f f' : α → Except ε β} (h : Fades r r') (hf : ∀ a, r' = .ok a → Fades (f a) (f' a)) :
    Fades (r >>= f) (r' >>= f') := by
  intro b hb
  cases hr' : r' with
  | error e =>
    rw [hr'] at hb
    cases hb
  | ok a =>
    rw [hr'] at hb
    rw [h a hr']
    exact hf a hr' b hb

lemma map (h : Fades r r') (f : α → β) : Fades (r.map f) (r'.map f) := by
  intro b hb
  cases hr' : r' with
  | error e =>
    rw [hr'] at hb
    cases hb
  | ok a =>
    rw [hr'] at hb
    rw [h a hr']
    exact hb

end Fades

namespace CleanLayer

variable {κ ν ε : Type} [Ord κ] [Std.TransOrd κ] {stored : κ → Except ε (Option ν)}
  {l l' : CleanLayer κ ν} {key : κ}

/-- Whatever the layer may forget about a key, the store does not say otherwise. -/
def Trusts (stored : κ → Except ε (Option ν)) (l : CleanLayer κ ν) (key : κ) : Prop :=
  l.keepsAll = true ∨ ∀ e e', l.peek? key = some e → stored key = .ok e' → e' = e

lemma Recalls.trusts (h : l.Recalls stored key) : l.Trusts stored key := by
  refine h.imp_right fun h e e' he hs => ?_
  exact Except.ok.inj (hs.symm.trans (h e he))

lemma Refreshed.trusts (h : Refreshed stored l l') (ht : l.Trusts stored key) :
    l'.Trusts stored key := by
  refine ht.imp h.keepsAll.trans fun ht e e' he hs => ?_
  rcases h.entry he with he | hs'
  · exact ht e e' he hs
  · exact Except.ok.inj (hs.symm.trans hs')

/-- What the layer or else the store says about a key fades. -/
lemma Refreshed.entry_fades (h : Refreshed stored l l') (ht : l.Trusts stored key) :
    Fades ((l.peek? key).elim (stored key) .ok) ((l'.peek? key).elim (stored key) .ok) := by
  intro e he
  cases hl' : l'.peek? key with
  | none =>
    rw [hl'] at he
    cases hl : l.peek? key with
    | none => exact he
    | some e₀ =>
      rcases ht with hk | ht
      · exact absurd (h.kept hk hl) (by rw [hl']; exact nofun)
      · exact congrArg Except.ok (ht e₀ e hl he).symm
  | some e' =>
    rw [hl'] at he
    obtain rfl : e' = e := Except.ok.inj he
    rcases h.entry hl' with hl | hs
    · rw [hl]
      rfl
    · cases hl : l.peek? key with
      | none => exact hs
      | some e₀ =>
        rcases ht with hk | ht
        · exact congrArg Except.ok (Option.some.inj ((h.kept hk hl).symm.trans hl'))
        · exact congrArg Except.ok (ht e₀ e' hl hs).symm

end CleanLayer

namespace Table

variable {κ ν : Type} [Ord κ] [Std.TransOrd κ] {t : Table κ ν} {w w' : World} {key : κ}

lemma readClean_fades (hstore : w'.store = w.store)
    (hl : (t.cache w).clean.Refreshed (t.stored w.store) (t.cache w').clean)
    (ht : (t.cache w).clean.Trusts (t.stored w.store) key) :
    Fades (t.readClean w key) (t.readClean w' key) := by
  rw [readClean, readClean, hstore]
  exact hl.entry_fades ht

/-- What is read of a key fades as long as the pending write stays the same. -/
lemma read_fades (hstore : w'.store = w.store)
    (hdirty : (t.cache w').dirty[key]? = (t.cache w).dirty[key]?)
    (hl : (t.cache w).clean.Refreshed (t.stored w.store) (t.cache w').clean)
    (ht : (t.cache w).clean.Trusts (t.stored w.store) key) :
    Fades (t.read w key) (t.read w' key) := by
  rw [read, read, hdirty]
  cases (t.cache w).dirty[key]? with
  | some e => exact .refl _
  | none => exact readClean_fades hstore hl ht

end Table

/-- If a condition holds for no more than before apart from one case, the number of those for which
it holds grows by no more than that case makes of it. -/
lemma card_filter_add_le {α : Type} [Fintype α] [DecidableEq α] {p q : α → Bool} {a : α}
    (h : ∀ b, b ≠ a → q b = true → p b = true) :
    (Finset.univ.filter fun b => q b = true).card + (p a).toNat ≤
      (Finset.univ.filter fun b => p b = true).card + (q a).toNat := by
  have hsum (p : α → Bool) : (Finset.univ.filter fun b => p b = true).card =
      (p a).toNat + ∑ b ∈ Finset.univ.erase a, (p b).toNat := by
    rw [Finset.add_sum_erase Finset.univ (fun b => (p b).toNat) (Finset.mem_univ a),
      Finset.card_filter]
    refine Finset.sum_congr rfl fun b _ => ?_
    cases p b <;> rfl
  have hrest : ∑ b ∈ Finset.univ.erase a, (q b).toNat ≤ ∑ b ∈ Finset.univ.erase a, (p b).toNat :=
    Finset.sum_le_sum fun b hb => Bool.toNat_le_toNat (h b (Finset.ne_of_mem_erase hb))
  rw [hsum p, hsum q]
  omega

namespace World

variable {w w' w'' : World} {a b : Address} {index index' : Word}

/-- Whatever the clean layers may forget about incarnations, and about the slots of those that are
current, the store does not say otherwise. -/
structure Truthful (w : World) : Prop where
  incarnations : ∀ a, w.incarnations.clean.Trusts (Table.incarnations.stored w.store) a
  storage : ∀ a incarnation index, w.readIncarnation a = .ok incarnation →
    w.storage.clean.Trusts (Table.storage.stored w.store) ⟨a, incarnation, index⟩

/-- A world that can fetch again all that it may forget is truthful. -/
lemma Refetchable.truthful (h : w.Refetchable) : w.Truthful :=
  ⟨fun a => (h.incarnations a).trusts, fun a i index hi => (h.storage a i index hi).trusts⟩

namespace SameIncarnations

lemma readIncarnation_fades (h : w.SameIncarnations w') (hw : w.Truthful) (a : Address) :
    Fades (w.readIncarnation a) (w'.readIncarnation a) := by
  have hd : w'.incarnations.dirty[a]? = w.incarnations.dirty[a]? := by rw [h.dirty]
  exact .map (Table.read_fades h.continues.store hd h.continues.incarnations.clean
    (hw.incarnations a)) _

lemma truthful (h : w.SameIncarnations w') (hw : w.Truthful) : w'.Truthful where
  incarnations a := h.continues.store ▸ h.continues.incarnations.clean.trusts (hw.incarnations a)
  storage a i index hi := h.continues.store ▸
    h.continues.storage.clean.trusts (hw.storage a i index (h.readIncarnation_fades hw a i hi))

/-- What a slot held as of the last flush fades, whatever is written. -/
lemma readFlushedSlot_fades (h : w.SameIncarnations w') (hw : w.Truthful) (a : Address)
    (index : Word) : Fades (w.readFlushedSlot a index) (w'.readFlushedSlot a index) := by
  refine .bind (h.readIncarnation_fades hw a) fun current hcurrent => .bind (.map
    (Table.readClean_fades h.continues.store h.continues.incarnations.clean (hw.incarnations a)) _)
    fun flushed _ => ?_
  split
  · rename_i heq
    have hread := h.readIncarnation_fades hw a current hcurrent
    exact .map (Table.readClean_fades h.continues.store h.continues.storage.clean
      (hw.storage a flushed index (heq ▸ hread))) _
  · exact .refl _

/-- What a slot holds fades unless it is written. -/
lemma readSlot_fades (h : w.SameIncarnations w') (hw : w.Truthful)
    (hd : ∀ i, w.readIncarnation a = .ok i →
      w'.storage.dirty[(⟨a, i, index⟩ : SlotKey)]? = w.storage.dirty[(⟨a, i, index⟩ : SlotKey)]?) :
    Fades (w.readSlot a index) (w'.readSlot a index) := by
  refine .bind (h.readIncarnation_fades hw a) fun i hi => ?_
  have hread := h.readIncarnation_fades hw a i hi
  exact .map (Table.read_fades h.continues.store (hd i hread) h.continues.storage.clean
    (hw.storage a i index hread)) _

end SameIncarnations

/-! ## Counting cleared slots -/

/-- Whether a slot held something as of the last flush and holds nothing now. -/
def isCleared (w : World) (a : Address) (index : Word) : Bool :=
  match answer (flushedSlot a index) w, answer (slot a index) w with
  | .ok initial, .ok present => initial != 0 && present == 0
  | _, _ => false

/-- The number of slots that held something as of the last flush and hold nothing now. -/
def cleared (w : World) : Nat :=
  (Finset.univ.filter fun s : Address × Word => w.isCleared s.1 s.2 = true).card

lemma isCleared_iff : w.isCleared a index = true ↔
    ∃ initial, w.readFlushedSlot a index = .ok initial ∧ initial ≠ 0 ∧
      w.readSlot a index = .ok 0 := by
  rw [isCleared, answer_flushedSlot, answer_slot]
  cases w.readFlushedSlot a index <;> cases w.readSlot a index <;> simp

lemma cleared_le (h : ∀ a index, w'.isCleared a index = true → w.isCleared a index = true) :
    w'.cleared ≤ w.cleared :=
  Finset.card_le_card (Finset.monotone_filter_right _ fun s _ => h s.1 s.2)

/-- Where nothing is pending, every slot holds what it held as of the last flush. -/
lemma readFlushedSlot_of_dirty (hs : w.storage.dirty = ∅) (hi : w.incarnations.dirty = ∅)
    (a : Address) (index : Word) : w.readFlushedSlot a index = w.readSlot a index := by
  have hincarnation : Table.incarnations.read w a = Table.incarnations.readClean w a := by
    rw [Table.read]
    simp only [Table.incarnations, hi, Std.ExtTreeMap.getElem?_empty, Option.elim_none]
  have hslot (key : SlotKey) : Table.storage.read w key = Table.storage.readClean w key := by
    rw [Table.read]
    simp only [Table.storage, hs, Std.ExtTreeMap.getElem?_empty, Option.elim_none]
  rw [readFlushedSlot, readSlot, readIncarnation, hincarnation]
  cases Table.incarnations.readClean w a with
  | error e => rfl
  | ok n =>
    change (if n.getD 0 = n.getD 0 then _ else _) = Except.map _ (Table.storage.read w _)
    rw [if_pos rfl, hslot]

/-- Where nothing is pending, no slot is cleared. -/
lemma cleared_eq_zero (hs : w.storage.dirty = ∅) (hi : w.incarnations.dirty = ∅) :
    w.cleared = 0 := by
  refine Finset.card_eq_zero.2 (Finset.filter_eq_empty_iff.2 fun s _ hcleared => ?_)
  obtain ⟨initial, hflushed, hne, hslot⟩ := isCleared_iff.1 hcleared
  rw [readFlushedSlot_of_dirty hs hi, hslot] at hflushed
  exact hne (Except.ok.inj hflushed).symm

/-- A world where the same is read of slots has as many cleared. -/
lemma cleared_congr
    (hflushed : ∀ a index, w'.readFlushedSlot a index = w.readFlushedSlot a index)
    (hslot : ∀ a index, w'.readSlot a index = w.readSlot a index) : w'.cleared = w.cleared := by
  refine congrArg Finset.card (Finset.filter_congr fun s _ => ?_)
  rw [isCleared_iff, isCleared_iff, hflushed, hslot]

lemma cleared_checkpoint (w : World) : w.checkpoint.cleared = w.cleared :=
  cleared_congr (fun _ _ => rfl) fun _ _ => rfl

lemma cleared_committed (h : w.commit = .ok w') : w'.cleared = w.cleared := by
  obtain ⟨-, hincarnations, hstorage⟩ := commit_caches h
  have hclean := Cache.clean_of_commit hstorage
  obtain ⟨-, -, hdirty⟩ := Cache.versions_of_commit hstorage
  have hcleanIncarnation (a : Address) :
      Table.incarnations.readClean w' a = Table.incarnations.readClean w a := by
    simp only [Table.readClean, Table.incarnations, store_of_commit h,
      Cache.clean_of_commit hincarnations]
  have hcleanSlot (key : SlotKey) :
      Table.storage.readClean w' key = Table.storage.readClean w key := by
    simp only [Table.readClean, Table.storage, store_of_commit h, hclean]
  refine cleared_congr (fun a index => ?_) fun a index => ?_
  · simp only [readFlushedSlot, readIncarnation_committed h, hcleanIncarnation, hcleanSlot]
  · simp only [readSlot, readIncarnation_committed h, Table.read, hcleanSlot]
    simp only [Table.storage, hdirty]

/-! ## Without writes to slots -/

namespace SameSlots

lemma isCleared (h : w.SameSlots w') (hw : w.Truthful) (hcleared : w'.isCleared a index = true) :
    w.isCleared a index = true := by
  obtain ⟨initial, hinitial, hne, hpresent⟩ := isCleared_iff.1 hcleared
  exact isCleared_iff.2 ⟨initial, h.readFlushedSlot_fades hw a index initial hinitial, hne,
    h.readSlot_fades hw (fun _ _ => by rw [h.slots]) 0 hpresent⟩

/-- No slot is cleared without being written. -/
lemma cleared_le (h : w.SameSlots w') (hw : w.Truthful) : w'.cleared ≤ w.cleared :=
  World.cleared_le fun _ _ => h.isCleared hw

end SameSlots

/-! ## Writing a slot -/

/-- Writing a slot moves on to no other incarnation. -/
lemma sameIncarnations_setSlot (w : World) (a : Address) (index value : Word) :
    w.SameIncarnations ((setSlot a index value).run w).2 := by
  obtain ⟨w₁, hrun, href⟩ := incarnation_run w a
  have hwrite (key : SlotKey) (entry : Option Word) :
      w.SameIncarnations { w₁ with storage := w₁.storage.write key entry } :=
    ⟨href.continues.trans (Table.steady_storage.continues (.write _ key entry)),
      href.incarnations.dirty⟩
  unfold setSlot
  rw [Program.run_bind, hrun]
  cases w.readIncarnation a with
  | error e => exact ⟨href.continues, href.incarnations.dirty⟩
  | ok i =>
    dsimp only
    split
    · exact hwrite _ none
    · exact hwrite _ (some value)

/-- What is written to a slot. -/
lemma setSlot_ok {value : Word} (h : (setSlot a index value).run w = (.ok (), w')) :
    ∃ i w₁ entry, w.readIncarnation a = .ok i ∧ w.Refreshed w₁ ∧ entry.getD 0 = value ∧
      w' = { w₁ with storage := w₁.storage.write ⟨a, i, index⟩ entry } := by
  obtain ⟨w₁, hrun, href⟩ := incarnation_run w a
  unfold setSlot at h
  rw [Program.run_bind, hrun] at h
  cases hi : w.readIncarnation a with
  | error e =>
    rw [hi] at h
    cases h
  | ok i =>
    rw [hi] at h
    dsimp only at h
    split at h <;> rename_i hvalue
    · exact ⟨i, w₁, none, rfl, href, hvalue.symm, (congrArg Prod.snd h).symm⟩
    · exact ⟨i, w₁, some value, rfl, href, rfl, (congrArg Prod.snd h).symm⟩

/-- A write that changes nothing about the other slots. -/
lemma readSlot_setSlot {value : Word} (hw : w.Truthful)
    (h : (setSlot a index value).run w = (.ok (), w')) :
    Fades (.ok value) (w'.readSlot a index) ∧
      ∀ b index', (b, index') ≠ (a, index) →
        Fades (w.readSlot b index') (w'.readSlot b index') := by
  have hsame : w.SameIncarnations w' := by
    have hsetSlot := sameIncarnations_setSlot w a index value
    rwa [h] at hsetSlot
  obtain ⟨i, w₁, entry, hi, href, hvalue, hw'⟩ := setSlot_ok h
  have hread (key : SlotKey) : Table.storage.read w' key =
      if key = ⟨a, i, index⟩ then .ok entry else Table.storage.read w₁ key := by
    rw [hw']
    exact Table.read_write Table.lawful_storage w₁ _ key entry
  refine ⟨fun v hv => ?_, fun b index' hne => ?_⟩
  · rw [readSlot] at hv
    cases hi' : w'.readIncarnation a with
    | error e =>
      rw [hi'] at hv
      cases hv
    | ok i' =>
      rw [hi'] at hv
      obtain rfl : i = i' := Except.ok.inj (hi.symm.trans (hsame.readIncarnation_fades hw a i' hi'))
      change (Table.storage.read w' _).map _ = _ at hv
      rw [hread, if_pos rfl] at hv
      rw [← hvalue]
      exact hv
  · refine .bind (hsame.readIncarnation_fades hw b) fun n hn => ?_
    have hkey : (⟨b, n, index'⟩ : SlotKey) ≠ ⟨a, i, index⟩ := by
      intro heq
      cases heq
      exact hne rfl
    rw [hread, if_neg hkey]
    have hd : w₁.storage.dirty[(⟨b, n, index'⟩ : SlotKey)]? =
        w.storage.dirty[(⟨b, n, index'⟩ : SlotKey)]? := by rw [href.storage.dirty]
    exact .map (Table.read_fades href.store hd href.storage.clean
      (hw.storage b n index' (hsame.readIncarnation_fades hw b n hn))) _

/-- The number of cleared slots grows by no more than one slot does, if no other one is cleared. -/
lemma cleared_add_le (a : Address) (index : Word) (h : ∀ b index', (b, index') ≠ (a, index) →
      w'.isCleared b index' = true → w.isCleared b index' = true) :
    w'.cleared + (w.isCleared a index).toNat ≤ w.cleared + (w'.isCleared a index).toNat :=
  card_filter_add_le (p := fun s : Address × Word => w.isCleared s.1 s.2)
    (q := fun s => w'.isCleared s.1 s.2) (a := (a, index)) fun s hne => h s.1 s.2 hne

/-- A write changes the number of cleared slots by what it makes of its own. -/
lemma cleared_setSlot {w₁ : World} {initial present value : Word} (hw : w.Truthful)
    (hsame : w.SameSlots w₁) (hinitial : w.readFlushedSlot a index = .ok initial)
    (hpresent : w.readSlot a index = .ok present)
    (h : (setSlot a index value).run w₁ = (.ok (), w')) :
    w'.cleared + (initial != 0 && present == 0).toNat ≤
      w.cleared + (initial != 0 && value == 0).toNat := by
  have hw₁ := hsame.truthful hw
  have hset : w₁.SameIncarnations w' := by
    have hsetSlot := sameIncarnations_setSlot w₁ a index value
    rwa [h] at hsetSlot
  have hflushed (b : Address) (index' : Word) :
      Fades (w.readFlushedSlot b index') (w'.readFlushedSlot b index') :=
    (hsame.toSameIncarnations.trans hset).readFlushedSlot_fades hw b index'
  obtain ⟨hwritten, hothers⟩ := readSlot_setSlot hw₁ h
  have hkept (b : Address) (index' : Word) (hne : (b, index') ≠ (a, index))
      (hcleared : w'.isCleared b index' = true) : w.isCleared b index' = true := by
    obtain ⟨initial, hi, hne', hzero⟩ := isCleared_iff.1 hcleared
    exact isCleared_iff.2 ⟨initial, hflushed b index' initial hi, hne',
      hsame.readSlot_fades hw (fun _ _ => by rw [hsame.slots]) 0 (hothers b index' hne 0 hzero)⟩
  have hadd := cleared_add_le a index hkept
  have hbefore : w.isCleared a index = (initial != 0 && present == 0) := by
    rw [isCleared, answer_flushedSlot, answer_slot, hinitial, hpresent]
  have hafter : (w'.isCleared a index).toNat ≤ (initial != 0 && value == 0).toNat := by
    refine Bool.toNat_le_toNat fun hcleared => ?_
    obtain ⟨initial', hi, hne, hzero⟩ := isCleared_iff.1 hcleared
    obtain rfl : initial = initial' :=
      Except.ok.inj (hinitial.symm.trans (hflushed a index initial' hi))
    obtain rfl : value = 0 := Except.ok.inj (hwritten 0 hzero)
    rw [bne_iff_ne.2 hne]
    rfl
  rw [hbefore] at hadd
  exact hadd.trans (Nat.add_le_add_left hafter _)

end World

end Evm
