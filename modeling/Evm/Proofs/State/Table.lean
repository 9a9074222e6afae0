import Evm.Proofs.Invariant
import Evm.Proofs.State.Cache
import Evm.State.Flush

/-!
# Reads through a cache

A read asks the pending writes, then the clean layer, then the store. `Table.read` says what comes
out of that without saying what the caches do meanwhile; the lemmas on `load` and `loadClean` say
that it is what they give, and that the clean layer is all that they change.
-/

namespace Evm

namespace Table

variable {κ ν : Type} [Ord κ] [Std.TransOrd κ]

/-- A table is a component of the world that the store is no part of. -/
structure Lawful (t : Table κ ν) : Prop where
  cache_setCache : ∀ w c, t.cache (t.setCache w c) = c
  setCache_cache : ∀ w, t.setCache w (t.cache w) = w
  setCache_setCache : ∀ w c c', t.setCache (t.setCache w c) c' = t.setCache w c'
  store_setCache : ∀ w c, (t.setCache w c).store = w.store

lemma lawful_accounts : accounts.Lawful :=
  ⟨fun _ _ => rfl, fun _ => rfl, fun _ _ _ => rfl, fun _ _ => rfl⟩

lemma lawful_storage : storage.Lawful :=
  ⟨fun _ _ => rfl, fun _ => rfl, fun _ _ _ => rfl, fun _ _ => rfl⟩

lemma lawful_code : code.Lawful :=
  ⟨fun _ _ => rfl, fun _ => rfl, fun _ _ _ => rfl, fun _ _ => rfl⟩

lemma lawful_incarnations : incarnations.Lawful :=
  ⟨fun _ _ => rfl, fun _ => rfl, fun _ _ _ => rfl, fun _ _ => rfl⟩

/-- What a store holds under a key. -/
def stored (t : Table κ ν) (s : Store) (key : κ) : Except StateError (Option ν) :=
  match s.get (t.key key) with
  | .error e => .error (.store e)
  | .ok none => .ok none
  | .ok (some raw) => (t.decode key raw).map some

/-- An empty store holds nothing. -/
lemma stored_empty (t : Table κ ν) (key : κ) : t.stored {} key = .ok none := by
  have hget : ({} : Store).get (t.key key) = .ok none :=
    congrArg Except.ok (Std.ExtTreeMap.getElem?_empty (a := t.key key))
  rw [stored, hget]

/-- What a read of a key as of the last flush gives. -/
def readClean (t : Table κ ν) (w : World) (key : κ) : Except StateError (Option ν) :=
  ((t.cache w).clean.peek? key).elim (t.stored w.store key) .ok

/-- What a read of a key gives. -/
def read (t : Table κ ν) (w : World) (key : κ) : Except StateError (Option ν) :=
  ((t.cache w).dirty[key]?).elim (t.readClean w key) .ok

/-- The world with another clean layer. -/
def setClean (t : Table κ ν) (w : World) (l : CleanLayer κ ν) : World :=
  t.setCache w { t.cache w with clean := l }

@[simp] lemma onCache_run {α : Type} (t : Table κ ν) (f : Cache κ ν → α × Cache κ ν) (w : World) :
    (t.onCache f).run w = (.ok (f (t.cache w)).1, t.setCache w (f (t.cache w)).2) := rfl

variable {t : Table κ ν}

lemma setClean_clean (ht : t.Lawful) (w : World) : t.setClean w (t.cache w).clean = w :=
  ht.setCache_cache w

lemma readClean_setClean (ht : t.Lawful) (w : World) (l : CleanLayer κ ν) (key : κ) :
    t.readClean (t.setClean w l) key = (l.peek? key).elim (t.stored w.store key) .ok := by
  rw [readClean, setClean, ht.cache_setCache, ht.store_setCache]

variable [Std.LawfulEqOrd κ] [DecidableEq κ]

/-- A key that the clean layer does not know is read from the store. -/
lemma fetch_run (ht : t.Lawful) {w : World} {l : CleanLayer κ ν} {key : κ}
    (hl : l.peek? key = none) :
    ∃ l', (t.fetch key).run (t.setClean w l) = (t.stored w.store key, t.setClean w l') ∧
      l.Refreshed (t.stored w.store) l' := by
  have hs : (t.setClean w l).store = w.store := ht.store_setCache _ _
  have hfill : ∀ value, t.setCache (t.setClean w l) ((t.cache (t.setClean w l)).fill key value) =
      t.setClean w (l.insert key value) := by
    intro value
    simp only [setClean, Cache.fill, ht.cache_setCache, ht.setCache_setCache]
  unfold fetch
  rw [Program.run_bind_ok (Program.run_get _), hs]
  cases hg : w.store.get (t.key key) with
  | error e => exact ⟨l, by simp only [stored, hg, Program.run_throw], .refl l⟩
  | ok raw? =>
    cases raw? with
    | none =>
      have hv : t.stored w.store key = .ok none := by simp only [stored, hg]
      refine ⟨l.insert key none, ?_, .insert hv hl⟩
      simp only [hv, Program.run_bind, onCache_run, Program.run_pure, hfill]
    | some raw =>
      cases hd : t.decode key raw with
      | error e =>
        exact ⟨l, by simp only [stored, hg, hd, Except.map, Program.run_throw], .refl l⟩
      | ok value =>
        have hv : t.stored w.store key = .ok (some value) := by
          simp only [stored, hg, hd, Except.map]
        refine ⟨l.insert key (some value), ?_, .insert hv hl⟩
        simp only [hv, hd, Program.run_bind, onCache_run, Program.run_pure, hfill]

/-- A read as of the last flush changes nothing but the clean layer, and that so that the same read
gives the same again. -/
lemma loadClean_run (ht : t.Lawful) (w : World) (key : κ) :
    ∃ l, (t.loadClean key).run w = (t.readClean w key, t.setClean w l) ∧
      (t.cache w).clean.Refreshed (t.stored w.store) l ∧
      t.readClean (t.setClean w l) key = t.readClean w key := by
  have hget : (t.cache w).clean.Refreshed (t.stored w.store) _ := .get (t.cache w).clean key
  unfold loadClean
  rw [Program.run_bind_ok (onCache_run t _ w), Cache.getClean_eq]
  cases he : (t.cache w).clean.peek? key with
  | some entry =>
    have hv : t.readClean w key = .ok entry := by rw [readClean, he, Option.elim_some]
    refine ⟨_, ?_, hget, ?_⟩
    · rw [hv, Option.elim_some, Lookup.known?_ofEntry]
      rfl
    · rw [readClean_setClean ht, CleanLayer.peek?_get, he, hv, Option.elim_some]
  | none =>
    have hv : t.readClean w key = t.stored w.store key := by rw [readClean, he, Option.elim_none]
    have hl : ((t.cache w).clean.get key).2.peek? key = none := by
      rw [CleanLayer.peek?_get, he]
    obtain ⟨l, hf, hr⟩ := fetch_run ht (w := w) hl
    refine ⟨l, ?_, hget.trans hr, ?_⟩
    · rw [hv]
      exact hf
    · rw [readClean_setClean ht, hr.entry_or (.inr fun e h => by rw [hl] at h; cases h), hl, hv,
        Option.elim_none]

/-- A read changes nothing but the clean layer, and that so that the same read as of the last flush
gives the same as before. -/
lemma load_run (ht : t.Lawful) (w : World) (key : κ) :
    ∃ l, (t.load key).run w = (t.read w key, t.setClean w l) ∧
      (t.cache w).clean.Refreshed (t.stored w.store) l ∧
      t.readClean (t.setClean w l) key = t.readClean w key := by
  cases hd : (t.cache w).dirty[key]? with
  | some entry =>
    refine ⟨(t.cache w).clean, ?_, .refl _, by rw [setClean_clean ht]⟩
    have hget : (t.cache w).get key = (.ofEntry entry, t.cache w) := by
      simp only [Cache.get, hd]
    unfold load
    rw [Program.run_bind_ok (onCache_run t _ w), hget, read, hd, Option.elim_some,
      Lookup.known?_ofEntry]
    rfl
  | none =>
    have hget : (t.cache w).get key = (t.cache w).getClean key := by
      simp only [Cache.get, hd]
    have hload : (t.load key).run w = (t.loadClean key).run w := by
      unfold load loadClean
      rw [Program.run_bind_ok (onCache_run t _ w), Program.run_bind_ok (onCache_run t _ w), hget]
    have hread : t.read w key = t.readClean w key := by rw [read, hd, Option.elim_none]
    rw [hload, hread]
    exact loadClean_run ht w key

/-- What is read after a write. -/
lemma read_write (ht : t.Lawful) (w : World) (key other : κ) (value : Option ν) :
    t.read (t.setCache w ((t.cache w).write key value)) other =
      if other = key then .ok value else t.read w other := by
  rw [read, readClean, ht.cache_setCache, ht.store_setCache, Cache.clean_write, Cache.dirty_write,
    Std.ExtTreeMap.getElem?_insert]
  simp only [Std.LawfulEqOrd.compare_eq_iff_eq, eq_comm (a := key)]
  split
  · rfl
  · rfl

end Table

end Evm
