import Evm.Proofs.Rlp
import Evm.Proofs.State.Batch
import Evm.Proofs.State.Reads

/-!
# What a flush leaves

A flush brings the pending writes to the store and moves them to the clean layers. What is read
stays the same, whether the clean layers remember it or have it read back from the store; only the
slots of incarnations that are over are gone.
-/

namespace Evm

/-! ## Caches -/

namespace CleanLayer

variable {κ ν : Type} [Ord κ] [Std.TransOrd κ]

/-- The layer with some entries set one after the other. -/
def insertAll (l : CleanLayer κ ν) (entries : List (κ × Option ν)) : CleanLayer κ ν :=
  entries.foldl (fun layer e => layer.insert e.1 e.2) l

@[simp] lemma keepsAll_insertAll (l : CleanLayer κ ν) (entries : List (κ × Option ν)) :
    (l.insertAll entries).keepsAll = l.keepsAll := by
  induction entries generalizing l with
  | nil => rfl
  | cons e entries ih => exact (ih _).trans (keepsAll_insert l e.1 e.2)

variable [Std.LawfulEqOrd κ] {l : CleanLayer κ ν}

/-- What a layer says after some entries are set is one of them, or was said before. -/
lemma peek?_insertAll_some {entries : List (κ × Option ν)} {key : κ} {entry : Option ν}
    (h : (l.insertAll entries).peek? key = some entry) :
    (key, entry) ∈ entries ∨ l.peek? key = some entry ∧ ∀ e ∈ entries, e.1 ≠ key := by
  induction entries generalizing l with
  | nil => exact .inr ⟨h, fun e he => by cases he⟩
  | cons e entries ih =>
    rcases ih h with hmem | ⟨hpeek, hne⟩
    · exact .inl (List.mem_cons_of_mem e hmem)
    · rcases peek?_insert_some hpeek with ⟨rfl, rfl⟩ | ⟨hkey, hpeek⟩
      · exact .inl List.mem_cons_self
      · refine .inr ⟨hpeek, fun e' he' => ?_⟩
        rcases List.mem_cons.1 he' with rfl | he'
        · exact hkey.symm
        · exact hne e' he'

/-- Of the entries of a map, the layer says that of the key or, if there is none, what it said
before. -/
lemma peek?_insertAll_toList {dirty : Std.ExtTreeMap κ (Option ν)} {key : κ} {entry : Option ν}
    (h : (l.insertAll dirty.toList).peek? key = some entry) :
    dirty[key]?.or (l.peek? key) = some entry := by
  rcases peek?_insertAll_some h with hmem | ⟨hpeek, hne⟩
  · rw [Std.ExtTreeMap.mem_toList_iff_getElem?_eq_some.1 hmem]
    rfl
  · have hnone : dirty[key]? = none := by
      refine Option.eq_none_iff_forall_ne_some.2 fun value hvalue => ?_
      exact hne _ (Std.ExtTreeMap.mem_toList_iff_getElem?_eq_some.2 hvalue) rfl
    rw [hnone, hpeek]
    rfl

/-- A layer that forgets nothing says all that it is told. -/
lemma peek?_insertAll_of_keepsAll [DecidableEq κ] (hl : l.keepsAll = true)
    (dirty : Std.ExtTreeMap κ (Option ν)) (key : κ) :
    (l.insertAll dirty.toList).peek? key = dirty[key]?.or (l.peek? key) := by
  have hfold (entries : List (κ × Option ν)) (l : CleanLayer κ ν) (hl : l.keepsAll = true) :
      (l.insertAll entries).peek? key =
        entries.foldl (fun said e => if key = e.1 then some e.2 else said) (l.peek? key) := by
    induction entries generalizing l with
    | nil => rfl
    | cons e entries ih =>
      rw [List.foldl_cons, ← peek?_insert_of_keepsAll hl]
      exact ih _ ((keepsAll_insert l e.1 e.2).trans hl)
  rw [hfold _ l hl, BatchOp.foldl_toList dirty key]
  · cases dirty[key]? with
    | none => rfl
    | some entry => exact if_pos rfl
  · exact fun said e hne => if_neg hne.symm

end CleanLayer

namespace Cache

variable {κ ν : Type} [Ord κ] [Std.TransOrd κ]

/-- The cache once its pending writes are moved to the clean layer. -/
def flushed (c : Cache κ ν) : Cache κ ν :=
  { c with clean := c.clean.insertAll c.dirty.toList, dirty := ∅ }

lemma flush_of_closed {c : Cache κ ν} (h : c.diffs = []) : c.flush = .ok (c.dirty.toList, c.flushed) := by
  rw [flush, if_pos (by rw [depth, h, List.length_nil])]
  rfl

end Cache

/-! ## Tables -/

namespace Table

variable {κ ν : Type} [Ord κ] [Std.TransOrd κ] {t : Table κ ν} {w w' : World} {key : κ}

lemma drain_run (h : (t.cache w).diffs = []) :
    t.drain.run w = (.ok (t.cache w).dirty.toList, t.setCache w (t.cache w).flushed) := by
  unfold drain
  rw [Program.run_bind_ok (Program.run_get _), Cache.flush_of_closed h]
  rfl

variable [Std.LawfulEqOrd κ] [DecidableEq κ]

/-- A flush is not seen under a key if the store then holds what was pending there, or else what it
held before; what was pending need not get there if the layer keeps all. -/
lemma read_flushed (hdirty : (t.cache w').dirty = ∅) {l : CleanLayer κ ν}
    (hclean : (t.cache w').clean = l.insertAll (t.cache w).dirty.toList)
    (hl : (t.cache w).clean.Refreshed (t.stored w.store) l)
    (hstored : l.keepsAll = true ∧ (t.cache w).dirty[key]? ≠ none ∨ t.stored w'.store key =
      (t.cache w).dirty[key]?.elim (t.stored w.store key) .ok)
    (hr : (t.cache w).clean.Recalls (t.stored w.store) key) :
    t.read w' key = t.read w key ∧ (t.cache w').clean.Recalls (t.stored w'.store) key := by
  have hread' : t.read w' key =
      ((l.insertAll (t.cache w).dirty.toList).peek? key).elim (t.stored w'.store key) .ok := by
    rw [read, readClean, hdirty, hclean, Std.ExtTreeMap.getElem?_empty, Option.elim_none]
  have hread : t.read w key = (t.cache w).dirty[key]?.elim
      ((l.peek? key).elim (t.stored w.store key) .ok) .ok := by
    rw [read, readClean, hl.entry_or hr]
  rcases hstored with ⟨hkeeps, hpending⟩ | hstored
  · obtain ⟨pending, hd⟩ := Option.ne_none_iff_exists'.1 hpending
    rw [hread', hread, CleanLayer.peek?_insertAll_of_keepsAll hkeeps, hd, hclean]
    exact ⟨rfl, .inl ((CleanLayer.keepsAll_insertAll l _).trans hkeeps)⟩
  -- What the layer remembers is what was read; and if it may forget that, the store holds it.
  have hremembered {e : Option ν}
      (he : (l.insertAll (t.cache w).dirty.toList).peek? key = some e) :
      t.read w key = .ok e ∧ (l.keepsAll = true ∨ t.stored w'.store key = .ok e) := by
    have hor := CleanLayer.peek?_insertAll_toList he
    cases hd : (t.cache w).dirty[key]? with
    | some pending =>
      rw [hd] at hor hread hstored
      obtain rfl : pending = e := Option.some.inj hor
      exact ⟨hread, .inr hstored⟩
    | none =>
      rw [hd] at hor hread hstored
      have hpeek : l.peek? key = some e := hor
      rw [Option.elim_none, hpeek] at hread
      refine ⟨hread, (hl.recalls hr).imp_right fun hstore => ?_⟩
      exact hstored.trans (hstore e hpeek)
  constructor
  · cases he : (l.insertAll (t.cache w).dirty.toList).peek? key with
    | some e => rw [hread', he, (hremembered he).1, Option.elim_some]
    | none =>
      rw [hread', he, Option.elim_none, hstored, hread]
      cases hd : (t.cache w).dirty[key]? with
      | some pending => rfl
      | none =>
        rw [Option.elim_none, Option.elim_none]
        cases hpeek : l.peek? key with
        | none => rfl
        | some e =>
          rcases hl.recalls hr with hkeeps | hstore
          · rw [CleanLayer.peek?_insertAll_of_keepsAll hkeeps, hd, hpeek] at he
            cases he
          · rw [hstore e hpeek, Option.elim_some]
  · rw [hclean, CleanLayer.Recalls, CleanLayer.keepsAll_insertAll]
    by_cases hkeeps : l.keepsAll = true
    · exact .inl hkeeps
    · exact .inr fun e he => (hremembered he).2.resolve_left hkeeps

end Table

/-! ## The store -/

/-- Code is its bytes and its hash. -/
lemma Code.eq_ofHashed (c : Code) : c = ofHashed c.bytes c.hash := by
  obtain ⟨bytes, hash, ⟨fn⟩, htable⟩ := c
  have hfn : fn = fun _ => JumpTable.analyze bytes := funext fun _ => htable
  subst hfn
  rfl

namespace Table

/-- A record that a batch writes is read back. -/
lemma stored_foldl_apply {κ ν : Type} [Ord κ] [Std.TransOrd κ] {t : Table κ ν} {store : Store}
    {ops : List BatchOp} {key : κ} {pending? : Option (Option ν)} (encode : ν → Bytes)
    (hupdate : ∀ old, ops.foldl (BatchOp.update (t.key key)) old =
      pending?.elim old (Option.map encode))
    (hdecode : ∀ value, pending? = some (some value) → t.decode key (encode value) = .ok value)
    (hget : pending? = none ∨ ∀ e, store.get (t.key key) ≠ .error e) :
    t.stored (ops.foldl Store.apply store) key = pending?.elim (t.stored store key) .ok := by
  rw [stored, stored, Store.get_foldl_apply]
  cases hold : store.get (t.key key) with
  | error e =>
    rcases hget with rfl | hget
    · rfl
    · exact absurd hold (hget e)
  | ok old =>
    simp only [Except.map, hupdate]
    rcases pending? with _ | _ | value
    · rfl
    · rfl
    · simp only [Option.elim_some, Option.map, hdecode value rfl]

variable (w : World) (pruned : List (Address × UInt64))

lemma stored_accounts_pending {a : Address}
    (hget : w.accounts.dirty[a]? = none ∨ ∀ e, w.store.get (StoreKey.account a) ≠ .error e) :
    accounts.stored ((w.pending pruned).ops.foldl Store.apply w.store) a =
      w.accounts.dirty[a]?.elim (accounts.stored w.store a) .ok := by
  refine stored_foldl_apply (t := accounts) (fun record => record.encode.toArray) (fun old => w.update_account pruned old a) ?_ hget
  intro record _
  change (Account.decode record.encode).mapError _ = _
  rw [Account.decode_encode]
  rfl

lemma stored_code_pending {hash : Hash}
    (hcode : ∀ code?, w.code.dirty[hash]? = some code? → ∃ code, code? = some code ∧ code.hash = hash)
    (hget : w.code.dirty[hash]? = none ∨ ∀ e, w.store.get (StoreKey.code hash) ≠ .error e) :
    code.stored ((w.pending pruned).ops.foldl Store.apply w.store) hash =
      w.code.dirty[hash]?.elim (code.stored w.store hash) .ok := by
  refine stored_foldl_apply (t := code) Code.bytes (fun old => ?_) ?_ hget
  · refine (w.update_codeOfHash pruned old hash).trans ?_
    cases hd : w.code.dirty[hash]? with
    | none => rfl
    | some code? =>
      obtain ⟨code, rfl, -⟩ := hcode code? hd
      rfl
  · intro code hd
    obtain ⟨_, hsome, hhash⟩ := hcode _ hd
    obtain rfl := Option.some.inj hsome
    exact congrArg Except.ok (hhash ▸ code.eq_ofHashed).symm

lemma stored_incarnations_pending {a : Address} (hsome : w.incarnations.dirty[a]? ≠ some none)
    (hget : w.incarnations.dirty[a]? = none ∨
      ∀ e, w.store.get (StoreKey.incarnation a) ≠ .error e) :
    incarnations.stored ((w.pending pruned).ops.foldl Store.apply w.store) a =
      w.incarnations.dirty[a]?.elim (incarnations.stored w.store a) .ok := by
  refine stored_foldl_apply (t := incarnations) (fun n => Bytes.ofNat 8 n.toNat)
    (fun old => ?_) ?_ hget
  · refine (w.update_incarnation pruned old a).trans ?_
    rcases hd : w.incarnations.dirty[a]? with _ | _ | n
    · rw [Option.elim_none, Option.elim_none]
    · exact absurd hd hsome
    · rw [Option.elim_some, Option.elim_some, Option.map_some, Option.getD_some]
  · intro n _
    have hn : n.toNat < 256 ^ 8 := n.toNat_lt
    simp only [incarnations, Bytes.size_ofNat, if_true, Bytes.toNat_ofNat_of_lt hn,
      UInt64.ofNat_toNat]

lemma stored_storage_pending {key : SlotKey} (hpruned : (key.address, key.incarnation) ∉ pruned)
    (hover : World.isOver w.incarnations.dirty key = false)
    (hget : w.storage.dirty[key]? = none ∨ ∀ e, w.store.get (StoreKey.slot key) ≠ .error e) :
    storage.stored ((w.pending pruned).ops.foldl Store.apply w.store) key =
      w.storage.dirty[key]?.elim (storage.stored w.store key) .ok := by
  refine stored_foldl_apply (t := storage)
    (fun value => (Rlp.encodeNat value.toNat).toArray) (fun old => ?_) ?_ hget
  · refine (w.update_slot pruned old key).trans ?_
    rw [if_neg hpruned, hover, if_neg Bool.false_ne_true]
  · intro value _
    change (Rlp.exact Rlp.word (Rlp.encodeNat value.toNat)).mapError _ = _
    rw [Rlp.exact_word_encodeNat]
    rfl

end Table

/-! ## Incarnations that are over -/

namespace World

/-- Of some accounts with their latest incarnations, those whose flushed incarnation is lower, with
the latter. -/
def supersededOf (w : World) :
    List (Address × UInt64) → Except StateError (List (Address × UInt64))
  | [] => .ok []
  | (a, latest) :: rest => do
    let flushed := (← Table.incarnations.readClean w a).getD 0
    let others ← w.supersededOf rest
    return if flushed < latest then (a, flushed) :: others else others

lemma supersededOf_congr {w w' : World}
    (h : ∀ a, Table.incarnations.readClean w' a = Table.incarnations.readClean w a)
    (latest : List (Address × UInt64)) : w'.supersededOf latest = w.supersededOf latest := by
  induction latest with
  | nil => rfl
  | cons e latest ih => rw [supersededOf, supersededOf, h, ih]

/-- Finding the incarnations that are over changes nothing but what the clean layer of incarnations
remembers, and that does not matter if it can be recalled. -/
lemma superseded_run (w : World) (latest : List (Address × UInt64)) :
    ∃ r l, (superseded latest).run w = (r, Table.incarnations.setClean w l) ∧
      w.incarnations.clean.Refreshed (Table.incarnations.stored w.store) l ∧
      ((∀ a, w.incarnations.clean.Recalls (Table.incarnations.stored w.store) a) →
        r = w.supersededOf latest) := by
  induction latest generalizing w with
  | nil => exact ⟨.ok [], w.incarnations.clean, rfl, .refl _, fun _ => rfl⟩
  | cons e latest ih =>
    obtain ⟨a, n⟩ := e
    obtain ⟨l₁, hrun₁, hl₁, -⟩ := Table.loadClean_run Table.lawful_incarnations w a
    unfold superseded
    rw [Program.run_bind, hrun₁]
    cases hread : Table.incarnations.readClean w a with
    | error e => exact ⟨.error e, l₁, rfl, hl₁, fun _ => by rw [supersededOf, hread]; rfl⟩
    | ok flushed? =>
      obtain ⟨r, l₂, hrun₂, hl₂, hr⟩ := ih (Table.incarnations.setClean w l₁)
      have hsame (hw : ∀ a, w.incarnations.clean.Recalls (Table.incarnations.stored w.store) a) :
          r = w.supersededOf latest := by
        rw [hr fun a => hl₁.recalls (hw a)]
        have hclean (a : Address) :
            Table.incarnations.readClean (Table.incarnations.setClean w l₁) a =
              Table.incarnations.readClean w a := by
          refine Table.readClean_eq ?_ ?_ (hw a)
          · rfl
          · exact hl₁
        exact supersededOf_congr hclean latest
      dsimp only
      rw [Program.run_bind, hrun₂]
      cases r with
      | error e =>
        refine ⟨.error e, l₂, rfl, hl₁.trans hl₂, fun hw => ?_⟩
        rw [supersededOf, hread, ← hsame hw]
        rfl
      | ok others =>
        refine ⟨_, l₂, rfl, hl₁.trans hl₂, fun hw => ?_⟩
        rw [supersededOf, hread, ← hsame hw]
        rfl

/-! ## The world -/

/-- The world once its pending writes are moved to the clean layers. -/
def flushed (w : World) : World :=
  { w with
    accounts := w.accounts.flushed
    storage := w.storage.flushed
    code := w.code.flushed
    incarnations := w.incarnations.flushed }

/-- There are no open checkpoints. -/
structure Closed (w : World) : Prop where
  accounts : w.accounts.diffs = []
  storage : w.storage.diffs = []
  code : w.code.diffs = []
  incarnations : w.incarnations.diffs = []

/-- The latest incarnations of the accounts whose incarnation has changed. -/
def latest (w : World) : List (Address × UInt64) :=
  w.incarnations.dirty.toList.map fun e => (e.1, e.2.getD 0)

/-- Without open checkpoints everything pending is taken. -/
lemma prepareFlush_run {w : World} (h : w.Closed) :
    prepareFlush.run w =
      match (superseded w.latest).run w with
      | (.ok pruned, w') => (.ok (w.pending pruned), w'.flushed)
      | (.error e, w') => (.error e, w') := by
  obtain ⟨r, l, hrun, -, -⟩ := superseded_run w w.latest
  have hdepth : ¬0 < w.depth := by
    rw [depth, Cache.depth, h.accounts]
    exact Nat.lt_irrefl 0
  unfold prepareFlush
  rw [Program.run_bind_ok (Program.run_get _), if_neg hdepth]
  change (superseded w.latest >>= _).run w = _
  rw [Program.run_bind, hrun]
  cases r with
  | error e => rfl
  | ok pruned =>
    -- Draining one cache leaves the others.
    let w₁ := Table.incarnations.setClean w l
    let w₂ := Table.code.setCache w₁ (Table.code.cache w₁).flushed
    let w₃ := Table.incarnations.setCache w₂ (Table.incarnations.cache w₂).flushed
    let w₄ := Table.accounts.setCache w₃ (Table.accounts.cache w₃).flushed
    dsimp only
    rw [Program.run_bind_ok (Table.drain_run (t := Table.code) (w := w₁) h.code),
      Program.run_bind_ok (Table.drain_run (t := Table.incarnations) (w := w₂) h.incarnations),
      Program.run_bind_ok (Table.drain_run (t := Table.accounts) (w := w₃) h.accounts),
      Program.run_bind_ok (Table.drain_run (t := Table.storage) (w := w₄) h.storage)]
    rfl

end World

end Evm
