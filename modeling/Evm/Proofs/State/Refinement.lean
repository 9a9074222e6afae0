import Evm.Proofs.State.Reference

/-!
# Worlds and plain maps

A world answers as the plain maps do. What is pending, at present and at each open checkpoint, shows
maps through the store (`World.Version.Shows`), and nothing pending shows the maps as of the last
flush. Deletion needs more than that: the slots of the next incarnation of an account must be empty
already. None is pending, because slots are pending in time, and the store has none either
(`Reference.Describes`). One action keeps all of it, and so does a whole run.
-/

namespace Evm

open Function (update)

/-! ## Reading through pending writes -/

namespace Table

variable {κ ν : Type} [Ord κ] [Std.TransOrd κ] {t : Table κ ν} {s : Store}
  {pending : Std.ExtTreeMap κ (Option ν)}

/-- What is found under a key, pending or else in the store. -/
def through (t : Table κ ν) (s : Store) (pending : Std.ExtTreeMap κ (Option ν)) (key : κ) :
    Except StateError (Option ν) :=
  pending[key]?.elim (t.stored s key) .ok

lemma through_empty (key : κ) : t.through s ∅ key = t.stored s key := by
  rw [through, Std.ExtTreeMap.getElem?_empty, Option.elim_none]

lemma through_insert [Std.LawfulEqOrd κ] [DecidableEq κ] (key other : κ) (value : Option ν) :
    t.through s (pending.insert key value) other =
      if other = key then .ok value else t.through s pending other := by
  rw [through, Std.ExtTreeMap.getElem?_insert]
  simp only [Std.LawfulEqOrd.compare_eq_iff_eq, eq_comm (a := key)]
  split
  · rfl
  · rfl

end Table

namespace World

/-- All that is pending. -/
structure Version where
  accounts : Std.ExtTreeMap Address (Option Account) := ∅
  storage : Std.ExtTreeMap SlotKey (Option Word) := ∅
  code : Std.ExtTreeMap Hash (Option Code) := ∅
  incarnations : Std.ExtTreeMap Address (Option UInt64) := ∅

/-- What is pending in a world. -/
def version (w : World) : Version :=
  ⟨w.accounts.dirty, w.storage.dirty, w.code.dirty, w.incarnations.dirty⟩

section

variable (w : World)

lemma version_writeAccount (a : Address) (record? : Option Account) :
    version { w with accounts := w.accounts.write a record? } =
      { w.version with accounts := w.version.accounts.insert a record? } := by
  rw [version, Cache.dirty_write]
  rfl

lemma version_writeSlot (key : SlotKey) (value? : Option Word) :
    version { w with storage := w.storage.write key value? } =
      { w.version with storage := w.version.storage.insert key value? } := by
  rw [version, Cache.dirty_write]
  rfl

lemma version_writeCode (hash : Hash) (code? : Option Code) :
    version { w with code := w.code.write hash code? } =
      { w.version with code := w.version.code.insert hash code? } := by
  rw [version, Cache.dirty_write]
  rfl

lemma version_writeIncarnation (a : Address) (n : UInt64) :
    version { w with incarnations := w.incarnations.write a (some n) } =
      { w.version with incarnations := w.version.incarnations.insert a (some n) } := by
  rw [version, Cache.dirty_write]
  rfl

variable {w} in
lemma version_refreshed {w₁ : World} (hw : w.Refreshed w₁) : w₁.version = w.version := by
  rw [version, version, hw.accounts.dirty, hw.storage.dirty, hw.code.dirty, hw.incarnations.dirty]

end

namespace Version

/-- Over that store, the maps are what is read. -/
structure Shows (s : Store) (v : Version) (m : Maps) : Prop where
  accounts : ∀ a, Table.accounts.through s v.accounts a = .ok (m.accounts a)
  deletions : ∀ a,
    (Table.incarnations.through s v.incarnations a).map (·.getD 0) = .ok (m.deletions a)
  slots : ∀ a index, (Table.storage.through s v.storage ⟨a, m.deletions a, index⟩).map (·.getD 0) =
    .ok (m.slots a index)
  code : ∀ hash, (Table.code.through s v.code hash).map (·.getD Code.empty) = .ok (m.code hash)

variable {s : Store} {v : Version} {m : Maps}

/-- A write of a record. -/
lemma Shows.writeAccount (h : v.Shows s m) (a : Address) (record? : Option Account) :
    Shows s { v with accounts := v.accounts.insert a record? }
      { m with accounts := update m.accounts a record? } where
  accounts b := by
    rw [Table.through_insert]
    dsimp only
    rw [Function.update_apply]
    split
    · rfl
    · exact h.accounts b
  deletions := h.deletions
  slots := h.slots
  code := h.code

/-- A write of a slot of the current incarnation. -/
lemma Shows.writeSlot (h : v.Shows s m) (a : Address) (index : Word) (value? : Option Word) :
    Shows s { v with storage := v.storage.insert ⟨a, m.deletions a, index⟩ value? }
      (m.setSlot a index (value?.getD 0)) where
  accounts := h.accounts
  deletions := h.deletions
  slots b other := by
    change (Table.storage.through s _ ⟨b, m.deletions b, other⟩).map _ =
      .ok (update m.slots a (update (m.slots a) index (value?.getD 0)) b other)
    rw [Table.through_insert]
    by_cases hb : b = a
    · subst hb
      rw [Function.update_self, Function.update_apply]
      by_cases hother : other = index
      · rw [if_pos (by rw [hother]), if_pos hother]
        rfl
      · rw [if_neg fun heq => hother (SlotKey.mk.inj heq).2.2, if_neg hother]
        exact h.slots b other
    · rw [Function.update_of_ne hb, if_neg fun heq => hb (SlotKey.mk.inj heq).1]
      exact h.slots b other
  code := h.code

lemma Shows.writeCode (h : v.Shows s m) (code : Code) :
    Shows s { v with code := v.code.insert code.hash (some code) }
      { m with code := update m.code code.hash code } where
  accounts := h.accounts
  deletions := h.deletions
  slots := h.slots
  code hash := by
    rw [Table.through_insert]
    dsimp only
    rw [Function.update_apply]
    split
    · rfl
    · exact h.code hash

/-- A raise of the incarnation empties the storage, if there are no slots in the next one yet. -/
lemma Shows.raise (h : v.Shows s m) {a : Address} (hnext : ∀ index,
      Table.storage.through s v.storage ⟨a, m.deletions a + 1, index⟩ = .ok none) :
    Shows s { v with incarnations := v.incarnations.insert a (some (m.deletions a + 1)) }
      (m.clearStorage a) where
  accounts := h.accounts
  deletions b := by
    change _ = Except.ok (update m.deletions a (m.deletions a + 1) b)
    rw [Table.through_insert, Function.update_apply]
    split
    · rfl
    · exact h.deletions b
  slots b index := by
    change (Table.storage.through s v.storage
        ⟨b, update m.deletions a (m.deletions a + 1) b, index⟩).map _ =
      .ok (update m.slots a (fun _ => 0) b index)
    by_cases hb : b = a
    · subst hb
      rw [Function.update_self, Function.update_self, hnext index]
      rfl
    · rw [Function.update_of_ne hb, Function.update_of_ne hb]
      exact h.slots b index
  code := h.code

end Version

/-- Over that store, the maps are what would be read if the open checkpoints were reverted one after
the other. -/
inductive SavedAs (s : Store) : List (Std.ExtTreeMap Address (Option Account)) →
    List (Std.ExtTreeMap SlotKey (Option Word)) → List (Std.ExtTreeMap Hash (Option Code)) →
    List (Std.ExtTreeMap Address (Option UInt64)) → List Maps → Prop
  | nil : SavedAs s [] [] [] [] []
  | cons {v : Version} {m : Maps} {accounts storage code incarnations below} (h : v.Shows s m)
      (hbelow : SavedAs s accounts storage code incarnations below) :
      SavedAs s (v.accounts :: accounts) (v.storage :: storage) (v.code :: code)
        (v.incarnations :: incarnations) (m :: below)

namespace SavedAs

variable {s : Store} {accounts : List (Std.ExtTreeMap Address (Option Account))}
  {storage : List (Std.ExtTreeMap SlotKey (Option Word))}
  {code : List (Std.ExtTreeMap Hash (Option Code))}
  {incarnations : List (Std.ExtTreeMap Address (Option UInt64))} {below : List Maps}

lemma length (h : SavedAs s accounts storage code incarnations below) :
    accounts.length = below.length ∧ storage.length = below.length ∧
      code.length = below.length ∧ incarnations.length = below.length := by
  induction h with
  | nil => exact ⟨rfl, rfl, rfl, rfl⟩
  | cons _ _ ih =>
    obtain ⟨ha, hs, hc, hi⟩ := ih
    exact ⟨congrArg (· + 1) ha, congrArg (· + 1) hs, congrArg (· + 1) hc, congrArg (· + 1) hi⟩

/-- What would be read at the latest of the open checkpoints. -/
lemma latest {m : Maps} (h : SavedAs s accounts storage code incarnations (m :: below)) :
    ∃ (v : Version) (a : _) (t : _) (c : _) (i : _), accounts = v.accounts :: a ∧
      storage = v.storage :: t ∧ code = v.code :: c ∧ incarnations = v.incarnations :: i ∧
      v.Shows s m ∧ SavedAs s a t c i below := by
  cases h with
  | cons h hbelow => exact ⟨_, _, _, _, _, rfl, rfl, rfl, rfl, h, hbelow⟩

end SavedAs

/-- All caches have as many open checkpoints as there are saved maps. -/
lemma open_of_savedAs {w : World} {s : Store} {below : List Maps}
    (h : SavedAs s w.accounts.saved w.storage.saved w.code.saved w.incarnations.saved below) :
    w.Open below.length := by
  obtain ⟨ha, hs, hc, hi⟩ := h.length
  rw [Cache.length_saved] at ha hs hc hi
  exact ⟨ha, hs, hc, hi⟩

end World

namespace Store

variable {s : Store} {a : Address} {n : UInt64}

/-- An incarnation that the one of the store comes to without coming round. -/
lemma incarnation_add_age (h : s.age a n ≤ Count.max - (s.incarnation a).toNat) :
    (s.incarnation a).toNat + s.age a n = n.toNat := by
  have h₁ := n.toNat_lt
  have h₂ := (s.incarnation a).toNat_lt
  rw [age, UInt64.toNat_sub] at h ⊢
  unfold Count.max at h
  omega

lemma age_of_le (h : s.incarnation a ≤ n) : s.age a n = n.toNat - (s.incarnation a).toNat :=
  UInt64.toNat_sub_of_le _ _ h

end Store

namespace Reference

open World (Action Version SavedAs Like upToMax Request Reply)

/-- The maps are what is read of a world at present, at its open checkpoints and as of the last
flush, and the store holds no slots of incarnations that are yet to come. -/
structure Depicts (r : Reference) (w : World) : Prop where
  current : w.version.Shows w.store r.current
  saved : SavedAs w.store w.accounts.saved w.storage.saved w.code.saved w.incarnations.saved r.saved
  flushed : Version.Shows w.store {} r.flushed
  later : ∀ key : SlotKey, w.store.incarnation key.address < key.incarnation →
    Table.storage.stored w.store key = .ok none

/-- So they are of a world in good order. -/
structure Describes (r : Reference) (w : World) : Prop extends r.Depicts w where
  like : Like (upToMax w.store) w w

/-! ## Reads -/

namespace Describes

variable {r : Reference} {w : World} (h : r.Describes w) (a : Address)

include h

lemma mirrors : w.Mirrors (upToMax w.store) := h.like.twins.mirrors

lemma orderly : w.Orderly (upToMax w.store) := h.like.twins.orderly

lemma readAccount : w.readAccount a = .ok (r.current.accounts a) := by
  rw [World.readAccount, Table.read_of_mirrors (h.mirrors.accounts a)]
  exact h.current.accounts a

lemma readIncarnation : w.readIncarnation a = .ok (r.current.deletions a) := by
  rw [World.readIncarnation, Table.read_of_mirrors (h.mirrors.incarnations a)]
  exact h.current.deletions a

lemma incarnationIn :
    World.incarnationIn w.store w.incarnations.dirty a = r.current.deletions a :=
  (h.mirrors.readIncarnation (h.readIncarnation a)).symm

lemma age_le : w.store.age a (r.current.deletions a) ≤ Count.max - (w.store.incarnation a).toNat :=
  h.orderly.age_le h.mirrors (h.readIncarnation a)

lemma readSlot (index : Word) : w.readSlot a index = .ok (r.current.slots a index) := by
  rw [World.readSlot, h.readIncarnation a]
  have hmirrors := h.mirrors.storage ⟨a, r.current.deletions a, index⟩ (h.age_le a)
  change (Table.storage.read w _).map _ = _
  rw [Table.read_of_mirrors hmirrors]
  exact h.current.slots a index

lemma readFlushedSlot (index : Word) : w.readFlushedSlot a index = .ok
    (if r.current.deletions a = r.flushed.deletions a then r.flushed.slots a index else 0) := by
  have hincarnation : (Table.incarnations.readClean w a).map (·.getD 0) =
      .ok (r.flushed.deletions a) := by
    rw [Table.readClean_of_mirrors (h.mirrors.incarnations a), ← Table.through_empty]
    exact h.flushed.deletions a
  rw [World.readFlushedSlot, h.readIncarnation a, hincarnation]
  change (if r.current.deletions a = r.flushed.deletions a then _ else _) = _
  split
  · rename_i heq
    have hmirrors := h.mirrors.storage ⟨a, r.flushed.deletions a, index⟩ (heq ▸ h.age_le a)
    rw [Table.readClean_of_mirrors hmirrors, ← Table.through_empty]
    exact h.flushed.slots a index
  · rfl

lemma readCode (hash : Hash) : w.readCode hash = .ok (r.current.codeOfHash hash) := by
  rw [World.readCode, Maps.codeOfHash]
  split
  · rfl
  · rw [Table.read_of_mirrors (h.mirrors.code hash)]
    exact h.current.code hash

lemma readCodeOf : w.readCodeOf a = .ok (r.current.codeOf a) := by
  rw [World.readCodeOf, h.readAccount a, Maps.codeOf]
  cases r.current.accounts a with
  | none => rfl
  | some record => exact h.readCode record.codeHash

end Describes

/-! ## Steps -/

section

variable {r r' : Reference} {w w₁ : World} {m : Maps}

lemma Depicts.changed (h : r.Depicts w) (hw : w.Continues w₁) (hv : w₁.version.Shows w.store m) :
    Depicts { r with current := m } w₁ where
  current := hw.store ▸ hv
  saved := by
    rw [hw.store, hw.accounts.saved, hw.storage.saved, hw.code.saved, hw.incarnations.saved]
    exact h.saved
  flushed := hw.store ▸ h.flushed
  later := hw.store ▸ h.later

lemma Depicts.refreshed (h : r.Depicts w) (hw : w.Refreshed w₁) : r.Depicts w₁ :=
  h.changed hw.continues (World.version_refreshed hw ▸ h.current)

/-- The world answers the request as the maps do, and is then what they are. -/
def Agrees (request : Request) (r : Reference) (w : World) : Prop :=
  ((World.serve request).run w).1.map Reply.plain = (r.serve request).1 ∧
    (r.serve request).2.Depicts ((World.serve request).run w).2

/-- A read gives what is found in the maps and leaves them. -/
lemma Depicts.read {α : Type} {op : WorldM α} {a : α} (h : r.Depicts w)
    (hrun : ∃ w₁, op.run w = (.ok a, w₁) ∧ w.Refreshed w₁) (f : α → Reply) :
    ((do return f (← op) : WorldM Reply).run w).1.map Reply.plain = .ok (f a).plain ∧
      r.Depicts ((do return f (← op) : WorldM Reply).run w).2 := by
  obtain ⟨w₁, hop, hw⟩ := hrun
  rw [Program.run_bind_ok hop]
  exact ⟨rfl, h.refreshed hw⟩

/-- A write succeeds and leaves other maps. -/
lemma Depicts.write {op : WorldM Unit} (h : r.Depicts w) (hop : op.run w = (.ok (), w₁))
    (hkeeps : ∀ w₀ : World, Keeps w₀.Continues op) (hv : w₁.version.Shows w.store m) :
    ((do op; return .done : WorldM Reply).run w).1.map Reply.plain = .ok .done ∧
      Depicts { r with current := m } ((do op; return .done : WorldM Reply).run w).2 := by
  have hw := hkeeps w w (.refl w)
  rw [hop] at hw
  rw [Program.run_bind_ok hop]
  exact ⟨rfl, h.changed hw hv⟩

end

/-! ### Writes -/

namespace Describes

variable {r : Reference} {w w₁ : World} (h : r.Describes w) (a : Address)

include h

/-- What comes after a look at the incarnation of an account depends on the counter. -/
lemma after_incarnation {α : Type} (q : UInt64 → WorldM α) :
    ∃ w₁, w.Refreshed w₁ ∧
      (World.incarnation a >>= q).run w = (q (r.current.deletions a)).run w₁ := by
  obtain ⟨w₁, hrun, hw⟩ := World.incarnation_run w a
  rw [h.readIncarnation a] at hrun
  exact ⟨w₁, hw, Program.run_bind_ok hrun⟩

lemma agrees_putAccount (record : Account) : Agrees (.putAccount a record) r w := by
  refine h.write rfl (fun _ => World.keeps_putAccount a record) ?_
  exact World.version_writeAccount w a (some record) ▸ h.current.writeAccount a (some record)

lemma agrees_setSlot (index value : Word) : Agrees (.setSlot a index value) r w := by
  let value? : Option Word := if value = 0 then none else some value
  have hvalue : value?.getD 0 = value := by
    dsimp only [value?]
    split
    · rename_i hzero
      exact hzero.symm
    · rfl
  obtain ⟨w₁, hw, hrun⟩ := h.after_incarnation a fun n =>
    if value = 0 then Table.storage.del ⟨a, n, index⟩ else Table.storage.put ⟨a, n, index⟩ value
  have hop : (World.setSlot a index value).run w = (.ok (),
      { w₁ with storage := w₁.storage.write ⟨a, r.current.deletions a, index⟩ value? }) := by
    refine hrun.trans ?_
    dsimp only [value?]
    split <;> rfl
  refine h.write hop (fun _ => World.keeps_setSlot a index value) ?_
  rw [World.version_writeSlot, World.version_refreshed hw]
  exact hvalue ▸ h.current.writeSlot a index value?

omit a in
lemma agrees_putCode (code : Code) : Agrees (.putCode code) r w := by
  by_cases hempty : code.hash = emptyHash
  · have hop : (World.putCode code).run w = (.ok (), w) := by
      unfold World.putCode
      rw [if_neg (not_not.2 hempty)]
      rfl
    have hmaps : r.current.putCode code = r.current := if_pos hempty
    have hshows : w.version.Shows w.store (r.current.putCode code) := hmaps.symm ▸ h.current
    exact h.write hop (fun _ => World.keeps_putCode code) hshows
  · have hop : (World.putCode code).run w =
        (.ok (), { w with code := w.code.write code.hash (some code) }) := by
      unfold World.putCode
      rw [if_pos hempty]
      rfl
    have hmaps : r.current.putCode code = { r.current with
        code := update r.current.code code.hash code } := if_neg hempty
    have hshows := hmaps.symm ▸ h.current.writeCode code
    exact h.write hop (fun _ => World.keeps_putCode code)
      (World.version_writeCode w code.hash (some code) ▸ hshows)

omit a in
/-- There are no slots of incarnations beyond the current ones, pending or in the store. -/
lemma beyond_empty (key : SlotKey) (hkey : r.current.deletions key.address < key.incarnation) :
    w.storage.dirty[key]? = none ∧ Table.storage.stored w.store key = .ok none := by
  have hadd := Store.incarnation_add_age (h.age_le key.address)
  rw [UInt64.lt_iff_toNat_lt] at hkey
  have hlt : (w.store.incarnation key.address).toNat < key.incarnation.toNat := by omega
  refine ⟨Option.eq_none_iff_forall_ne_some.2 fun e he => ?_, h.later key hlt⟩
  -- A slot that is pending is of an incarnation that its account has come to.
  have hage := h.orderly.slots _ List.mem_cons_self key e he
  dsimp only at hage
  rw [h.incarnationIn, Store.age_of_le (Nat.le_of_lt hlt)] at hage
  omega

/-- The storage of the next incarnation is empty. -/
lemma next_empty (hmax : r.current.deletions a ≠ UInt64.ofNat Count.max) (index : Word) :
    Table.storage.through w.store w.version.storage ⟨a, r.current.deletions a + 1, index⟩ =
      .ok none := by
  have hne : (r.current.deletions a).toNat ≠ Count.max := fun heq =>
    hmax (by rw [← heq, UInt64.ofNat_toNat])
  have hnext : r.current.deletions a < r.current.deletions a + 1 := by
    have hlt := (r.current.deletions a).toNat_lt
    rw [UInt64.lt_iff_toNat_lt, UInt64.toNat_add, UInt64.toNat_one]
    unfold Count.max at hne
    omega
  obtain ⟨hpending, hstored⟩ := h.beyond_empty ⟨a, r.current.deletions a + 1, index⟩ hnext
  change w.storage.dirty[_]?.elim _ _ = _
  rw [hpending, Option.elim_none, hstored]

lemma agrees_clearStorage (hmax : r.current.deletions a ≠ UInt64.ofNat Count.max) :
    Agrees (.clearStorage a) r w := by
  obtain ⟨w₁, hw, hrun⟩ := h.after_incarnation a fun n => Table.incarnations.put a (n + 1)
  have hop : (World.clearStorage a).run w = (.ok (), { w₁ with
      incarnations := w₁.incarnations.write a (some (r.current.deletions a + 1)) }) := hrun
  refine h.write hop (fun _ => World.keeps_clearStorage a) ?_
  have hversion := World.version_writeIncarnation w₁ a (r.current.deletions a + 1)
  rw [World.version_refreshed hw] at hversion
  exact hversion ▸ h.current.raise (h.next_empty a hmax)

lemma agrees_deleteAccount (hmax : r.current.deletions a ≠ UInt64.ofNat Count.max) :
    Agrees (.deleteAccount a) r w := by
  obtain ⟨w₁, hw, hrun⟩ := h.after_incarnation a fun n => do
    Table.accounts.del a
    Table.incarnations.put a (n + 1)
  have hop : (World.deleteAccount a).run w = (.ok (), { w₁ with
      accounts := w₁.accounts.write a none
      incarnations := w₁.incarnations.write a (some (r.current.deletions a + 1)) }) := hrun
  refine h.write hop (fun _ => World.keeps_deleteAccount a) ?_
  have hversion := World.version_writeIncarnation
    { w₁ with accounts := w₁.accounts.write a none } a (r.current.deletions a + 1)
  rw [World.version_writeAccount, World.version_refreshed hw] at hversion
  exact hversion ▸ (h.current.raise (h.next_empty a hmax)).writeAccount a none

end Describes

/-! ### Checkpoints -/

section

variable {r : Reference} {w : World}

lemma Describes.open (h : r.Describes w) : w.Open r.saved.length := World.open_of_savedAs h.saved

lemma Describes.agrees_checkpoint (h : r.Describes w) : Agrees .checkpoint r w := by
  refine ⟨rfl, h.current, ?_, h.flushed, h.later⟩
  have hsaved := SavedAs.cons h.current h.saved
  rw [World.version, ← Cache.saved_checkpoint, ← Cache.saved_checkpoint, ← Cache.saved_checkpoint,
    ← Cache.saved_checkpoint] at hsaved
  exact hsaved

/-- Without open checkpoints closing one fails, as it does for the maps. -/
lemma closing_error {close : World → Except CacheError World} {e : CacheError}
    (hclose : close w = .error e) :
    (do World.closing close; return .done : WorldM Reply).run w = (.error (.cache e), w) := by
  have hop : (World.closing close).run w = (.error (.cache e), w) := by
    rw [World.closing_run, hclose]
  exact Program.run_bind_error hop

lemma closing_ok {close : World → Except CacheError World} {w₁ : World}
    (hclose : close w = .ok w₁) :
    (do World.closing close; return .done : WorldM Reply).run w = (.ok .done, w₁) := by
  have hop : (World.closing close).run w = (.ok (), w₁) := by
    rw [World.closing_run, hclose]
  exact Program.run_bind_ok hop

/-- Committing drops the latest copy of the maps. -/
lemma Describes.agrees_commit (h : r.Describes w) : Agrees .commit r w := by
  obtain ⟨current, saved, flushed⟩ := r
  have hopen : w.Open saved.length := h.open
  unfold Agrees
  change ((do World.closing World.commit; return .done : WorldM Reply).run w).1.map _ = _ ∧
    Depicts _ ((do World.closing World.commit; return .done : WorldM Reply).run w).2
  cases saved with
  | nil =>
    rw [closing_error (World.commit_of_closed hopen.closed)]
    exact ⟨rfl, h.toDepicts⟩
  | cons latest below =>
    obtain ⟨v, a, t, c, i, ha, ht, hc, hi, -, hbelow⟩ := h.saved.latest
    obtain ⟨accounts, hruna, -, hda, hsa⟩ := Cache.commit_of_saved ha
    obtain ⟨storage, hrunt, -, hdt, hst⟩ := Cache.commit_of_saved ht
    obtain ⟨code, hrunc, -, hdc, hsc⟩ := Cache.commit_of_saved hc
    obtain ⟨incarnations, hruni, -, hdi, hsi⟩ := Cache.commit_of_saved hi
    have hcommit : w.commit = .ok { w with accounts, storage, code, incarnations } := by
      unfold World.commit
      rw [hruna, hrunt, hrunc, hruni]
      rfl
    rw [closing_ok hcommit]
    refine ⟨rfl, ?_, ?_, h.flushed, h.later⟩
    · have hversion : World.version { w with accounts, storage, code, incarnations } = w.version := by
        rw [World.version, World.version, hda, hdt, hdc, hdi]
      exact hversion ▸ h.current
    · subst hsa hst hsc hsi
      exact hbelow

/-- Reverting puts the latest copy of the maps back. -/
lemma Describes.agrees_revert (h : r.Describes w) : Agrees .revert r w := by
  obtain ⟨current, saved, flushed⟩ := r
  have hopen : w.Open saved.length := h.open
  unfold Agrees
  change ((do World.closing World.revert; return .done : WorldM Reply).run w).1.map _ = _ ∧
    Depicts _ ((do World.closing World.revert; return .done : WorldM Reply).run w).2
  cases saved with
  | nil =>
    rw [closing_error (World.revert_of_closed hopen.closed)]
    exact ⟨rfl, h.toDepicts⟩
  | cons latest below =>
    obtain ⟨v, a, t, c, i, ha, ht, hc, hi, hshows, hbelow⟩ := h.saved.latest
    obtain ⟨accounts, hruna, -, hda, hsa⟩ := Cache.revert_of_saved ha
    obtain ⟨storage, hrunt, -, hdt, hst⟩ := Cache.revert_of_saved ht
    obtain ⟨code, hrunc, -, hdc, hsc⟩ := Cache.revert_of_saved hc
    obtain ⟨incarnations, hruni, -, hdi, hsi⟩ := Cache.revert_of_saved hi
    have hrevert : w.revert = .ok { w with accounts, storage, code, incarnations } := by
      unfold World.revert
      rw [hruna, hrunt, hrunc, hruni]
      rfl
    rw [closing_ok hrevert]
    refine ⟨rfl, ?_, ?_, h.flushed, h.later⟩
    · have hversion : World.version { w with accounts, storage, code, incarnations } = v := by
        rw [World.version, hda, hdt, hdc, hdi]
      exact hversion ▸ hshows
    · subst hsa hst hsc hsi
      exact hbelow

/-! ### Flushes -/

/-- With open checkpoints a flush is refused. -/
lemma Describes.agrees_flush_open (h : r.Describes w) (hopen : r.saved ≠ []) :
    Agrees .flush r w := by
  obtain ⟨current, saved, flushed⟩ := r
  have hw : w.Open saved.length := h.open
  cases saved with
  | nil => exact absurd rfl hopen
  | cons latest below =>
    unfold Agrees
    change ((do return .flushed (← World.flush) : WorldM Reply).run w).1.map _ = _ ∧
      Depicts _ ((do return .flushed (← World.flush) : WorldM Reply).run w).2
    rw [Program.run_bind_error (World.flush_of_open hw)]
    exact ⟨rfl, h.toDepicts⟩

variable {pruned : List (Address × UInt64)}

lemma Describes.incarnation_after (h : r.Describes w) (a : Address) :
    (w.storeAfter pruned).incarnation a = r.current.deletions a :=
  (World.incarnation_after h.orderly pruned a).trans (h.incarnationIn a)

/-- Once everything pending is in the store, it holds no slots of later incarnations either. -/
lemma Describes.later_after (h : r.Describes w)
    (hpruned : ∀ a n, (a, n) ∈ pruned ↔ w.Prunes a n) {key : SlotKey}
    (hkey : (w.storeAfter pruned).incarnation key.address < key.incarnation) :
    Table.storage.stored (w.storeAfter pruned) key = .ok none := by
  have hadd := Store.incarnation_add_age (h.age_le key.address)
  have hbudget : (w.storeAfter pruned).age key.address key.incarnation ≤
      ((upToMax w.store).flushed w.store (w.storeAfter pruned)).left key.address := by
    change _ ≤ Count.max - (w.store.incarnation key.address).toNat - w.store.age key.address _
    have hmax := key.incarnation.toNat_lt
    rw [Store.age_of_le (UInt64.le_of_lt hkey), h.incarnation_after]
    unfold Count.max
    omega
  rw [h.incarnation_after] at hkey
  obtain ⟨hpending, hstored⟩ := h.beyond_empty key hkey
  rw [World.stored_slot_after h.orderly hpruned hbudget, hpending, Option.elim_none, hstored]

/-- Once everything pending is in the store, it shows the maps by itself. -/
lemma Describes.shows_after (h : r.Describes w)
    (hpruned : ∀ a n, (a, n) ∈ pruned ↔ w.Prunes a n) :
    Version.Shows (w.storeAfter pruned) {} r.current where
  accounts a := by
    rw [Table.through_empty, World.stored_account_after h.orderly]
    exact h.current.accounts a
  deletions a := by
    rw [Table.through_empty, World.stored_incarnation_after h.orderly]
    exact h.current.deletions a
  slots a index := by
    have hage : (w.storeAfter pruned).age a (r.current.deletions a) = 0 := by
      rw [← h.incarnation_after, Store.age_incarnation]
    rw [Table.through_empty, World.stored_slot_after h.orderly hpruned (hage ▸ Nat.zero_le _)]
    exact h.current.slots a index
  code hash := by
    rw [Table.through_empty, World.stored_code_after h.orderly]
    exact h.current.code hash

/-- Without open checkpoints a flush succeeds, and the maps are those as of the last flush then. -/
lemma Describes.flush_run (h : r.Describes w) (hclosed : r.saved = []) :
    ∃ pruned w₁, World.flush.run w = (.ok (w.pending pruned).changes, w₁) ∧
      Depicts { r with flushed := r.current } w₁ := by
  have hopen : w.Open 0 := by
    have hopen := h.open
    rwa [hclosed] at hopen
  obtain ⟨pruned, l, hflushes, -, -, hpruned⟩ :=
    World.flush_run h.orderly h.mirrors hopen.closed
  have hshows := h.shows_after hpruned
  have hafter := hopen.closed.after l pruned
  refine ⟨pruned, w.after l pruned, hflushes.flush, hshows, ?_, hshows,
    fun key hkey => h.later_after hpruned hkey⟩
  have hsaved {κ ν : Type} [Ord κ] [Std.TransOrd κ] {c : Cache κ ν} (hc : c.diffs = []) :
      c.saved = [] := by
    rw [Cache.saved, hc]
    rfl
  rw [hsaved hafter.accounts, hsaved hafter.storage, hsaved hafter.code,
    hsaved hafter.incarnations]
  exact hclosed.symm ▸ .nil

lemma Describes.agrees_flush (h : r.Describes w) : Agrees .flush r w := by
  by_cases hclosed : r.saved = []
  · obtain ⟨pruned, w₁, hrun, hdepicts⟩ := h.flush_run hclosed
    have hserve : r.serve .flush = (.ok .done, { r with flushed := r.current }) := by
      rw [serve, hclosed]
    unfold Agrees
    change ((do return .flushed (← World.flush) : WorldM Reply).run w).1.map _ = _ ∧
      Depicts _ ((do return .flushed (← World.flush) : WorldM Reply).run w).2
    rw [Program.run_bind_ok hrun, hserve]
    exact ⟨rfl, hdepicts⟩
  · exact h.agrees_flush_open hclosed

end

/-! ### Requests and actions -/

section

variable {r : Reference} {w : World}

/-- A world answers every request as the maps do. -/
lemma Describes.agrees (h : r.Describes w) {request : Request}
    (hnone : ¬r.Overflows (.request request)) : Agrees request r w := by
  have hmax {a : Address} (ha : request.raised? = some a) :
      r.current.deletions a ≠ UInt64.ofNat Count.max := by
    intro heq
    refine hnone ?_
    rw [Overflows, ha]
    exact decide_eq_true heq
  cases request with
  | account a =>
    refine h.read ?_ .account
    exact h.readAccount a ▸ World.account_run w a
  | accountOrEmpty a =>
    refine h.read (a := (r.current.accounts a).getD {}) ?_ .record
    have hrun := World.accountOrEmpty_run w a
    rwa [h.readAccount a] at hrun
  | exists? a =>
    refine h.read (a := (r.current.accounts a).isSome) ?_ .flag
    have hrun := World.exists?_run w a
    rwa [h.readAccount a] at hrun
  | putAccount a record => exact h.agrees_putAccount a record
  | deleteAccount a => exact h.agrees_deleteAccount a (hmax rfl)
  | clearStorage a => exact h.agrees_clearStorage a (hmax rfl)
  | incarnation a =>
    refine h.read ?_ .incarnation
    exact h.readIncarnation a ▸ World.incarnation_run w a
  | slot a index =>
    refine h.read ?_ .word
    exact h.readSlot a index ▸ World.slot_run w a index
  | setSlot a index value => exact h.agrees_setSlot a index value
  | flushedSlot a index =>
    refine h.read ?_ .word
    exact h.readFlushedSlot a index ▸ World.flushedSlot_run w a index
  | putCode code => exact h.agrees_putCode code
  | codeOfHash hash =>
    refine h.read ?_ .code
    exact h.readCode hash ▸ World.codeOfHash_run w hash
  | codeOf a =>
    refine h.read ?_ .code
    exact h.readCodeOf a ▸ World.codeOf_run w a
  | checkpoint => exact h.agrees_checkpoint
  | commit => exact h.agrees_commit
  | revert => exact h.agrees_revert
  | depth =>
    have hdepth : w.depth = r.saved.length := h.open.accounts
    exact ⟨congrArg (fun n => Except.ok (Reply.count n)) hdepth, h.toDepicts⟩
  | flush => exact h.agrees_flush

/-- A world stays in good order while it answers requests. -/
lemma Describes.serve (h : r.Describes w) {request : Request}
    (hnone : ¬r.Overflows (.request request)) :
    ((World.serve request).run w).1.map Reply.plain = (r.serve request).1 ∧
      (r.serve request).2.Describes ((World.serve request).run w).2 := by
  obtain ⟨hreply, hdepicts⟩ := h.agrees hnone
  have hroom (a : Address) (ha : a ∈ request.raised?) : w.HasRoom (upToMax w.store) a := by
    refine World.hasRoom_upToMax h.like.twins fun hmax => hnone ?_
    rw [h.readIncarnation a] at hmax
    rw [Overflows, Option.mem_def.1 ha]
    exact decide_eq_true (Except.ok.inj hmax)
  obtain ⟨-, budget, hlike, hfollows⟩ := h.like.serve request hroom
  exact ⟨hreply, hdepicts, hlike.upToMax hfollows⟩

/-- A world that takes the place of another has the maps as of the last flush. -/
lemma Describes.reopen (h : r.Describes w) (kind : CleanKind) :
    Describes { r with current := r.flushed, saved := [] } (World.ofStore w.store kind) :=
  ⟨⟨h.flushed, .nil, h.flushed, h.later⟩, World.like_ofStore h.orderly.faultless kind kind⟩

lemma Describes.act (h : r.Describes w) {action : Action} (hnone : ¬r.Overflows action) :
    (World.act action w).1.map Reply.plain = (r.act action).1 ∧
      (r.act action).2.Describes (World.act action w).2 := by
  cases action with
  | request request => exact h.serve hnone
  | reopen kind => exact ⟨rfl, h.reopen kind⟩

lemma Describes.actAll {actions : List Action} (h : r.Describes w)
    (hnone : NoneOverflows actions r) :
    (World.actAll actions w).1.map (·.map Reply.plain) = (Reference.actAll actions r).1 ∧
      (Reference.actAll actions r).2.Describes (World.actAll actions w).2 := by
  induction actions generalizing r w with
  | nil => exact ⟨rfl, h⟩
  | cons action rest ih =>
    obtain ⟨hreply, h₁⟩ := h.act hnone.1
    obtain ⟨hreplies, h₂⟩ := ih h₁ hnone.2
    exact ⟨congrArg₂ List.cons hreply hreplies, h₂⟩

end

/-! ## What a flush has written -/

/-- A list that holds one value under a key, or none, is looked up there. -/
lemma lookup_eq_of_mem {κ ν : Type} [BEq κ] [LawfulBEq κ] {entries : List (κ × ν)} {key : κ}
    {value? : Option ν} (h : ∀ value, (key, value) ∈ entries ↔ value? = some value) :
    entries.lookup key = value? := by
  cases hlookup : entries.lookup key with
  | some value =>
    obtain ⟨before, after, rfl, -⟩ := List.lookup_eq_some_iff.1 hlookup
    exact ((h value).1 (List.mem_append_right _ List.mem_cons_self)).symm
  | none =>
    refine (Option.eq_none_iff_forall_ne_some.2 fun value hvalue => ?_).symm
    have hne := List.lookup_eq_none_iff.1 hlookup _ ((h value).2 hvalue)
    rw [bne_self_eq_false] at hne
    cases hne

section

variable {r : Reference} {w : World} (pruned : List (Address × UInt64))

lemma lookup_accounts (a : Address) :
    (w.pending pruned).changes.accounts.lookup a = w.accounts.dirty[a]? :=
  lookup_eq_of_mem fun _ => Std.ExtTreeMap.mem_toList_iff_getElem?_eq_some

lemma lookup_incarnations (a : Address) : (w.pending pruned).changes.incarnations.lookup a =
    w.incarnations.dirty[a]?.map (·.getD 0) := by
  refine lookup_eq_of_mem fun n => ?_
  simp only [World.pending, Pending.changes, List.mem_map, Prod.exists, Prod.mk.injEq,
    Std.ExtTreeMap.mem_toList_iff_getElem?_eq_some, Option.map_eq_some_iff]
  grind

lemma lookup_code (hash : Hash) : (w.pending pruned).changes.code.lookup hash =
    w.code.dirty[hash]?.bind (·.map Code.bytes) := by
  refine lookup_eq_of_mem fun bytes => ?_
  simp only [World.pending, Pending.changes, List.mem_filterMap, Prod.exists, Prod.mk.injEq,
    Std.ExtTreeMap.mem_toList_iff_getElem?_eq_some, Option.map_eq_some_iff,
    Option.bind_eq_some_iff]
  grind

lemma lookup_storage {key : SlotKey} (hover : World.isOver w.incarnations.dirty key = false) :
    (w.pending pruned).changes.storage.lookup key = w.storage.dirty[key]?.map (·.getD 0) := by
  refine lookup_eq_of_mem fun value => ?_
  simp only [World.pending, Pending.changes, List.mem_map, List.mem_filter, Prod.exists,
    Prod.mk.injEq, Std.ExtTreeMap.mem_toList_iff_getElem?_eq_some, Option.map_eq_some_iff]
  grind

/-- What is read is what is pending, or else what the store holds. -/
lemma getD_of_through {κ ν α : Type} [Ord κ] [Std.TransOrd κ] {t : Table κ ν} {s : Store}
    {pending : Std.ExtTreeMap κ (Option ν)} {key : κ} {f : Option ν → α} {x y : α}
    (hread : (t.through s pending key).map f = .ok x) (hstored : (t.stored s key).map f = .ok y) :
    (pending[key]?.map f).getD y = x := by
  rw [Table.through] at hread
  cases hpending : pending[key]? with
  | none =>
    rw [hpending, Option.elim_none, hstored] at hread
    exact Except.ok.inj hread
  | some value? =>
    rw [hpending] at hread
    exact Except.ok.inj hread

/-- The slots of current incarnations are not left out by a flush. -/
lemma Describes.isOver_current (h : r.Describes w) (a : Address) (index : Word) :
    World.isOver w.incarnations.dirty ⟨a, r.current.deletions a, index⟩ = false := by
  have hcurrent := h.incarnationIn a
  rw [World.incarnationIn] at hcurrent
  rw [World.isOver]
  cases hpending : w.incarnations.dirty[a]? with
  | none => rfl
  | some n? =>
    rw [hpending, Option.elim_some] at hcurrent
    rw [Option.any_some, hcurrent]
    exact decide_eq_false (UInt64.lt_irrefl _)

/-- What the store holds of the slots of current incarnations: those as of the last flush, or none
if the storage has been emptied since. -/
lemma Describes.stored_slot (h : r.Describes w) (a : Address) (index : Word) :
    (Table.storage.stored w.store ⟨a, r.current.deletions a, index⟩).map (·.getD 0) =
      .ok (if r.current.deletions a = r.flushed.deletions a then r.flushed.slots a index else 0) := by
  split
  · rename_i heq
    have hslots := h.flushed.slots a index
    rwa [Table.through_empty, ← heq] at hslots
  · rename_i hne
    have hflushed : w.store.incarnation a = r.flushed.deletions a := by
      have hdeletions := h.flushed.deletions a
      rw [Table.through_empty] at hdeletions
      cases hs : Table.incarnations.stored w.store a with
      | error e =>
        rw [hs] at hdeletions
        cases hdeletions
      | ok flushed? =>
        rw [hs] at hdeletions
        exact (Store.incarnation_of_stored hs).trans (Except.ok.inj hdeletions)
    have hadd := Store.incarnation_add_age (h.age_le a)
    have hlt : w.store.incarnation a < r.current.deletions a := by
      rw [UInt64.lt_iff_toNat_lt]
      refine Nat.lt_of_le_of_ne (by omega) fun heq => hne ?_
      rw [← UInt64.toNat_inj.1 heq, hflushed]
    rw [h.later ⟨a, r.current.deletions a, index⟩ hlt]
    rfl

/-- The code that a flush writes, and what the store holds otherwise, is the current code. -/
lemma Describes.updated_code (h : r.Describes w) (hash : Hash) :
    ((w.pending pruned).changes.code.lookup hash).elim (r.flushed.code hash)
      (Code.ofHashed · hash) = r.current.code hash := by
  have hcurrent := h.current.code hash
  have hflushed := h.flushed.code hash
  rw [Table.through_empty] at hflushed
  rw [Table.through] at hcurrent
  rw [lookup_code]
  cases hpending : w.code.dirty[hash]? with
  | none =>
    have hnone : w.version.code[hash]? = none := hpending
    rw [hnone, Option.elim_none, hflushed] at hcurrent
    exact Except.ok.inj hcurrent
  | some code? =>
    -- Pending code is kept under its own hash, so that the bytes alone give it back.
    obtain ⟨code, rfl, rfl⟩ := h.orderly.code _ List.mem_cons_self hash code? hpending
    have hsome : w.version.code[code.hash]? = some (some code) := hpending
    rw [hsome] at hcurrent
    exact code.eq_ofHashed.symm.trans (Except.ok.inj hcurrent)

/-- What a flush has written leads from the maps as of the last flush to the current ones. -/
lemma Describes.updated (h : r.Describes w) :
    r.flushed.updated (w.pending pruned).changes = r.current := by
  have hdeletions (a : Address) :
      ((w.pending pruned).changes.incarnations.lookup a).getD (r.flushed.deletions a) =
        r.current.deletions a := by
    have hflushed := h.flushed.deletions a
    rw [Table.through_empty] at hflushed
    rw [lookup_incarnations]
    exact getD_of_through (h.current.deletions a) hflushed
  have haccounts (a : Address) :
      ((w.pending pruned).changes.accounts.lookup a).getD (r.flushed.accounts a) =
        r.current.accounts a := by
    have hcurrent := congrArg (Except.map id) (h.current.accounts a)
    have hflushed := congrArg (Except.map id) (h.flushed.accounts a)
    rw [Table.through_empty] at hflushed
    rw [lookup_accounts, ← Option.map_id_apply (x := w.accounts.dirty[a]?)]
    exact getD_of_through hcurrent hflushed
  have hslots (a : Address) (index : Word) :
      ((w.pending pruned).changes.storage.lookup ⟨a, r.current.deletions a, index⟩).getD
          (if r.current.deletions a = r.flushed.deletions a then r.flushed.slots a index else 0) =
        r.current.slots a index := by
    rw [lookup_storage pruned (h.isOver_current a index)]
    exact getD_of_through (h.current.slots a index) (h.stored_slot a index)
  unfold Maps.updated
  simp only [hdeletions, haccounts, hslots, h.updated_code]

end

/-! ## Runs -/

/-- Over an empty store a world is what the empty maps are. -/
lemma describes_ofStore (kind : CleanKind) : Describes {} (World.ofStore {} kind) := by
  have hshows : Version.Shows {} {} {} := by
    refine ⟨fun a => ?_, fun a => ?_, fun a index => ?_, fun hash => ?_⟩ <;>
      rw [Table.through_empty, Table.stored_empty] <;> rfl
  exact ⟨⟨hshows, .nil, hshows, fun _ _ => Table.stored_empty _ _⟩,
    World.like_ofStore rfl kind kind⟩

/-- Over a store that is empty or was written by flushes, a world answers everything as plain maps
do of which a copy is kept for every open checkpoint and as of the last flush, unless the counter of
an account overflows. Without open checkpoints a flush succeeds, and it writes what leads from the
maps as of the last flush to the current ones. -/
theorem actAll_plain (kind : CleanKind) {actions : List Action} (h : NoneOverflows actions {}) :
    (World.actAll actions (World.ofStore {} kind)).1.map (·.map Reply.plain) =
        (Reference.actAll actions {}).1 ∧
      ((Reference.actAll actions {}).2.saved = [] →
        ∃ changes, (World.flush.run (World.actAll actions (World.ofStore {} kind)).2).1 =
            .ok changes ∧
          (Reference.actAll actions {}).2.flushed.updated changes =
            (Reference.actAll actions {}).2.current) := by
  obtain ⟨hreplies, hdescribes⟩ := (describes_ofStore kind).actAll h
  refine ⟨hreplies, fun hclosed => ?_⟩
  obtain ⟨pruned, w₁, hrun, -⟩ := hdescribes.flush_run hclosed
  exact ⟨_, congrArg Prod.fst hrun, hdescribes.updated pruned⟩

/-- An account with a slot is flushed, deleted and made anew in a checkpoint that is reverted; then
its storage is cleared, and the world is reopened before and after that is flushed. -/
def rebirth : List Action :=
  [.request (.putAccount 1 {}), .request (.setSlot 1 0 7), .request .flush, .request .checkpoint,
    .request (.deleteAccount 1), .request (.putAccount 1 {}), .request (.setSlot 1 0 8),
    .request (.flushedSlot 1 0), .request .flush, .request .revert, .request (.slot 1 0),
    .request (.clearStorage 1), .reopen .ordered, .request (.slot 1 0),
    .request (.clearStorage 1), .request .flush, .reopen .ordered, .request (.slot 1 0),
    .request (.incarnation 1), .request .commit]

theorem actAll_plain_rebirth :
    (World.actAll rebirth (World.ofStore {} .ordered)).1.map (·.map Reply.plain) =
        (Reference.actAll rebirth {}).1 ∧
      ((Reference.actAll rebirth {}).2.saved = [] →
        ∃ changes, (World.flush.run (World.actAll rebirth (World.ofStore {} .ordered)).2).1 =
            .ok changes ∧
          (Reference.actAll rebirth {}).2.flushed.updated changes =
            (Reference.actAll rebirth {}).2.current) :=
  actAll_plain .ordered (by decide +kernel)

end Reference

end Evm
