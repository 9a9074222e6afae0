import Evm.Proofs.State.Flush

/-!
# The cache as a stack of copies

A cache that copies everything pending when a checkpoint is opened, drops the copy when it is
committed and puts it back when it is reverted, and that never forgets what it was told.
`Cache.serve` answers as this cache does, whatever its clean layer forgets
(`Cache.serveAll_admitted`): what is pending is the same, and of a key under which nothing is
pending it may have forgotten what it was told, but says nothing else.
-/

namespace Evm

lemma CleanLayer.peek?_empty {κ ν : Type} [Ord κ] [Std.TransOrd κ] (kind : CleanKind) (key : κ) :
    (empty kind : CleanLayer κ ν).peek? key = none := by
  cases kind with
  | ordered => exact Std.ExtTreeMap.getElem?_empty
  | recent capacity => rfl

namespace Cache

/-! ## Requests -/

/-- What a cache can be asked for. -/
inductive Request (κ ν : Type) where
  | get (key : κ)
  | put (key : κ) (value : ν)
  | del (key : κ)
  | fill (key : κ) (value : Option ν)
  | checkpoint
  | commit
  | revert
  | flush
  | depth
  | pending

/-- An answer of a cache. -/
inductive Reply (κ ν : Type) where
  | done
  | found (lookup : Lookup ν)
  | entries (entries : List (κ × Option ν))
  | count (n : Nat)
  | failed (e : CacheError)
  deriving DecidableEq

section

variable {κ ν : Type} [Ord κ] [Std.TransOrd κ]

/-- Closes a checkpoint. If there is none, the cache stays as it is. -/
def closing (close : Cache κ ν → Except CacheError (Cache κ ν)) (c : Cache κ ν) :
    Reply κ ν × Cache κ ν :=
  match close c with
  | .ok c => (.done, c)
  | .error e => (.failed e, c)

/-- Gives what was pending. If a checkpoint is open, the cache stays as it is. -/
def flushing (c : Cache κ ν) : Reply κ ν × Cache κ ν :=
  match c.flush with
  | .ok (entries, c) => (.entries entries, c)
  | .error e => (.failed e, c)

/-- Answers a request. -/
def serve : Request κ ν → Cache κ ν → Reply κ ν × Cache κ ν
  | .get key, c => (.found (c.get key).1, (c.get key).2)
  | .put key value, c => (.done, c.put key value)
  | .del key, c => (.done, c.del key)
  | .fill key value, c => (.done, c.fill key value)
  | .checkpoint, c => (.done, c.checkpoint)
  | .commit, c => c.closing commit
  | .revert, c => c.closing revert
  | .flush, c => c.flushing
  | .depth, c => (.count c.depth, c)
  | .pending, c => (.entries c.dirty.toList, c)

/-- Answers requests one after the other. -/
def serveAll : List (Request κ ν) → Cache κ ν → List (Reply κ ν) × Cache κ ν
  | [], c => ([], c)
  | request :: rest, c =>
    let (reply, c) := c.serve request
    let (replies, c) := serveAll rest c
    (reply :: replies, c)

end

/-! ## The reference -/

/-- What is to be answered. -/
inductive Expected (κ ν : Type) where
  | exactly (reply : Reply κ ν)
  /-- What the clean layer was told, unless it has forgotten it. -/
  | told (lookup : Lookup ν)

/-- The reply is as expected. -/
def Expected.Admits {κ ν : Type} : Expected κ ν → Reply κ ν → Prop
  | exactly expected, reply => reply = expected
  | told lookup, reply => reply = .found lookup ∨ reply = .found .unknown

/-- What was told of the store, what is pending, and the copies of it at the open checkpoints, the
latest first. -/
structure Reference (κ ν : Type) [Ord κ] [Std.TransOrd κ] where
  told : Std.ExtTreeMap κ (Option ν) := ∅
  dirty : Std.ExtTreeMap κ (Option ν) := ∅
  copies : List (Std.ExtTreeMap κ (Option ν)) := []

variable {κ ν : Type} [Ord κ] [Std.TransOrd κ]

namespace Reference

/-- What is expected of a read. -/
def get (key : κ) (r : Reference κ ν) : Expected κ ν :=
  match r.dirty[key]? with
  | some entry => .exactly (.found (.ofEntry entry))
  | none => .told (r.told[key]?.elim .unknown .ofEntry)

/-- Writes an entry. -/
def write (key : κ) (value : Option ν) (r : Reference κ ν) : Reference κ ν :=
  { r with dirty := r.dirty.insert key value }

/-- Closes a checkpoint, if there is one, given the latest copy and those below it. -/
def closing
    (close : Std.ExtTreeMap κ (Option ν) → List (Std.ExtTreeMap κ (Option ν)) → Reference κ ν)
    (r : Reference κ ν) : Expected κ ν × Reference κ ν :=
  match r.copies with
  | [] => (.exactly (.failed .noCheckpoint), r)
  | latest :: below => (.exactly .done, close latest below)

/-- Answers a request. -/
def serve : Request κ ν → Reference κ ν → Expected κ ν × Reference κ ν
  | .get key, r => (r.get key, r)
  | .put key value, r => (.exactly .done, r.write key (some value))
  | .del key, r => (.exactly .done, r.write key none)
  | .fill key value, r => (.exactly .done, { r with told := r.told.insert key value })
  | .checkpoint, r => (.exactly .done, { r with copies := r.dirty :: r.copies })
  | .commit, r => r.closing fun _ below => { r with copies := below }
  | .revert, r => r.closing fun latest below => { r with dirty := latest, copies := below }
  | .flush, r =>
    match r.copies with
    | [] => (.exactly (.entries r.dirty.toList), { r with told := r.told ∪ r.dirty, dirty := ∅ })
    | copies => (.exactly (.failed (.openCheckpoints copies.length)), r)
  | .depth, r => (.exactly (.count r.copies.length), r)
  | .pending, r => (.exactly (.entries r.dirty.toList), r)

/-- Answers requests one after the other. -/
def serveAll : List (Request κ ν) → Reference κ ν → List (Expected κ ν) × Reference κ ν
  | [], r => ([], r)
  | request :: rest, r =>
    let (expected, r) := r.serve request
    let (others, r) := serveAll rest r
    (expected :: others, r)

/-- What is pending is the same, at present and at each open checkpoint, and the clean layer says
nothing but what it was told. -/
structure Depicts (r : Reference κ ν) (c : Cache κ ν) : Prop where
  dirty : c.dirty = r.dirty
  saved : c.saved = r.copies
  told : ∀ {key entry}, c.clean.peek? key = some entry → r.told[key]? = some entry

end Reference

/-! ## Requests, one by one -/

section

variable {c : Cache κ ν} {e : CacheError}

lemma closing_of_failed {close : Cache κ ν → Except CacheError (Cache κ ν)}
    (h : (c.closing close).1 = .failed e) : (c.closing close).2 = c := by
  unfold closing at h ⊢
  cases hrun : close c with
  | error e => rfl
  | ok c' =>
    rw [hrun] at h
    cases h

lemma flushing_of_failed (h : c.flushing.1 = .failed e) : c.flushing.2 = c := by
  unfold flushing at h ⊢
  cases hrun : c.flush with
  | error e => rfl
  | ok flushed =>
    rw [hrun] at h
    cases h

/-- A request that fails changes nothing. -/
lemma serve_of_failed {request : Request κ ν} (h : (c.serve request).1 = .failed e) :
    (c.serve request).2 = c := by
  cases request with
  | commit => exact closing_of_failed h
  | revert => exact closing_of_failed h
  | flush => exact flushing_of_failed h
  | _ => cases h

end

namespace Reference.Depicts

variable {r : Reference κ ν} {c : Cache κ ν}

lemma empty (kind : CleanKind) : Depicts {} (Cache.empty kind : Cache κ ν) where
  dirty := rfl
  saved := rfl
  told h := by
    rw [Cache.empty, CleanLayer.peek?_empty] at h
    cases h

lemma depth (h : r.Depicts c) : c.depth = r.copies.length := by
  rw [← length_saved, h.saved]

/-- With a checkpoint there is something saved, which the latest copy is. -/
lemma saved_of_copies (h : r.Depicts c) {latest : Std.ExtTreeMap κ (Option ν)}
    {below : List (Std.ExtTreeMap κ (Option ν))} (hcopies : r.copies = latest :: below) :
    c.saved = latest :: below :=
  h.saved.trans hcopies

/-- Without a checkpoint there is nothing to close. -/
lemma diffs_of_copies_nil (h : r.Depicts c) (hcopies : r.copies = []) : c.diffs = [] :=
  diffs_of_saved_nil (h.saved.trans hcopies)

lemma checkpoint (h : r.Depicts c) :
    Depicts { r with copies := r.dirty :: r.copies } c.checkpoint where
  dirty := h.dirty
  saved := by rw [saved_checkpoint, h.dirty, h.saved]
  told := h.told

variable [Std.LawfulEqOrd κ]

/-- A read is answered as expected, and changes neither what is pending nor what is saved. -/
lemma get (h : r.Depicts c) (key : κ) :
    (r.get key).Admits (.found (c.get key).1) ∧ r.Depicts (c.get key).2 := by
  unfold Cache.get Reference.get
  rw [h.dirty]
  cases r.dirty[key]? with
  | some entry => exact ⟨rfl, h⟩
  | none =>
    dsimp only
    rw [getClean_eq]
    -- Nothing is pending: the clean layer answers, which may have forgotten what it was told.
    refine ⟨?_, h.dirty, h.saved, fun hpeek => h.told (by rwa [CleanLayer.peek?_get] at hpeek)⟩
    cases hpeek : c.clean.peek? key with
    | none => exact .inr rfl
    | some entry =>
      rw [h.told hpeek]
      exact .inl rfl

/-- What the clean layer evicts to make room is forgotten, but nothing else is said of it. -/
lemma fill (h : r.Depicts c) (key : κ) (value : Option ν) :
    Depicts { r with told := r.told.insert key value } (c.fill key value) where
  dirty := h.dirty
  saved := h.saved
  told {other entry} hpeek := by
    rw [Std.ExtTreeMap.getElem?_insert]
    rcases CleanLayer.peek?_insert_some hpeek with ⟨rfl, rfl⟩ | ⟨hne, hpeek⟩
    · rw [if_pos Std.ReflOrd.compare_self]
    · rw [if_neg fun heq => hne (Std.LawfulEqOrd.eq_of_compare heq).symm]
      exact h.told hpeek

lemma flush (h : r.Depicts c) (hcopies : r.copies = []) :
    c.flush = .ok (r.dirty.toList, c.flushed) ∧
      Depicts { r with told := r.told ∪ r.dirty, dirty := ∅ } c.flushed := by
  refine ⟨h.dirty ▸ flush_of_closed (h.diffs_of_copies_nil hcopies), rfl, ?_,
    fun {key _} hpeek => ?_⟩
  · change snapshots ∅ c.diffs = r.copies
    rw [h.diffs_of_copies_nil hcopies, hcopies]
    rfl
  · -- What was pending is told to the clean layer, which keeps as much of it as there is room for.
    have hentry := CleanLayer.peek?_insertAll_toList hpeek
    rw [Std.ExtTreeMap.getElem?_union, ← h.dirty]
    cases hdirty : c.dirty[key]? with
    | some value => rwa [hdirty] at hentry
    | none =>
      rw [hdirty] at hentry
      exact h.told hentry

section

variable [DecidableEq κ]

lemma write (h : r.Depicts c) (key : κ) (value : Option ν) :
    (r.write key value).Depicts (c.write key value) where
  dirty := by
    rw [dirty_write, h.dirty]
    rfl
  saved := (saved_write c key value).trans h.saved
  told hpeek := h.told (by rwa [clean_write] at hpeek)

lemma commit (h : r.Depicts c) {latest : Std.ExtTreeMap κ (Option ν)}
    {below : List (Std.ExtTreeMap κ (Option ν))} (hcopies : r.copies = latest :: below) :
    ∃ c', c.commit = .ok c' ∧ Depicts { r with copies := below } c' := by
  obtain ⟨c', hrun, hclean, hdirty, hsaved⟩ := commit_of_saved (h.saved_of_copies hcopies)
  exact ⟨c', hrun, hdirty.trans h.dirty, hsaved, fun hpeek => h.told (hclean ▸ hpeek)⟩

omit [DecidableEq κ] [Std.LawfulEqOrd κ] in
lemma revert (h : r.Depicts c) {latest : Std.ExtTreeMap κ (Option ν)}
    {below : List (Std.ExtTreeMap κ (Option ν))} (hcopies : r.copies = latest :: below) :
    ∃ c', c.revert = .ok c' ∧ Depicts { r with dirty := latest, copies := below } c' := by
  obtain ⟨c', hrun, hclean, hdirty, hsaved⟩ := revert_of_saved (h.saved_of_copies hcopies)
  exact ⟨c', hrun, hdirty, hsaved, fun hpeek => h.told (hclean ▸ hpeek)⟩

omit [DecidableEq κ] [Std.LawfulEqOrd κ] in
/-- A checkpoint is closed as expected if that is so where there is one. -/
lemma closing (h : r.Depicts c) {close : Cache κ ν → Except CacheError (Cache κ ν)}
    {close' : Std.ExtTreeMap κ (Option ν) → List (Std.ExtTreeMap κ (Option ν)) → Reference κ ν}
    (hnone : c.diffs = [] → close c = .error .noCheckpoint)
    (hsome : ∀ latest below, r.copies = latest :: below →
      ∃ c', close c = .ok c' ∧ (close' latest below).Depicts c') :
    (r.closing close').1.Admits (c.closing close).1 ∧
      (r.closing close').2.Depicts (c.closing close).2 := by
  unfold Cache.closing Reference.closing
  cases hcopies : r.copies with
  | nil =>
    rw [hnone (h.diffs_of_copies_nil hcopies)]
    exact ⟨rfl, h⟩
  | cons latest below =>
    obtain ⟨c', hrun, hc'⟩ := hsome latest below hcopies
    rw [hrun]
    exact ⟨rfl, hc'⟩

/-- A request is answered as expected. -/
theorem serve (h : r.Depicts c) (request : Request κ ν) :
    (r.serve request).1.Admits (c.serve request).1 ∧
      (r.serve request).2.Depicts (c.serve request).2 := by
  cases request with
  | get key => exact h.get key
  | put key value => exact ⟨rfl, h.write key (some value)⟩
  | del key => exact ⟨rfl, h.write key none⟩
  | fill key value => exact ⟨rfl, h.fill key value⟩
  | checkpoint => exact ⟨rfl, h.checkpoint⟩
  | commit =>
    exact h.closing (fun hdiffs => by rw [Cache.commit, hdiffs]) fun _ _ hcopies => h.commit hcopies
  | revert =>
    exact h.closing (fun hdiffs => by rw [Cache.revert, hdiffs]) fun _ _ hcopies => h.revert hcopies
  | flush =>
    unfold Cache.serve Reference.serve flushing
    cases hcopies : r.copies with
    | nil =>
      obtain ⟨hrun, hc'⟩ := h.flush hcopies
      rw [hcopies] at hc'
      simp only [hrun, hcopies]
      exact ⟨rfl, hc'⟩
    | cons latest below =>
      have hdepth : c.depth = (latest :: below).length := h.depth.trans (congrArg _ hcopies)
      have hfails : c.flush = .error (.openCheckpoints (latest :: below).length) := by
        rw [Cache.flush, hdepth]
        rfl
      simp only [hfails, hcopies]
      exact ⟨rfl, h⟩
  | depth => exact ⟨congrArg Reply.count h.depth, h⟩
  | pending => exact ⟨congrArg (Reply.entries ∘ Std.ExtTreeMap.toList) h.dirty, h⟩

/-- Requests are answered as expected, one after the other. -/
lemma serveAll (h : r.Depicts c) (requests : List (Request κ ν)) :
    List.Forall₂ Expected.Admits (r.serveAll requests).1 (c.serveAll requests).1 ∧
      (r.serveAll requests).2.Depicts (c.serveAll requests).2 := by
  induction requests generalizing r c with
  | nil => exact ⟨.nil, h⟩
  | cons request rest ih =>
    obtain ⟨hreply, hnext⟩ := h.serve request
    obtain ⟨hreplies, hend⟩ := ih hnext
    exact ⟨.cons hreply hreplies, hend⟩

end

end Reference.Depicts

/-- Whatever its clean layer forgets, the cache answers every sequence of requests as one does that
copies what is pending at each checkpoint, drops the copy at a commit and puts it back at a revert.
What is pending is the same in the end, there are as many checkpoints as copies, and a request that
fails changes nothing. -/
theorem serveAll_admitted [Std.LawfulEqOrd κ] (kind : CleanKind) (requests : List (Request κ ν)) :
    let (replies, c) := serveAll requests (empty kind)
    let (expected, r) := Reference.serveAll requests {}
    List.Forall₂ Expected.Admits expected replies ∧ c.dirty = r.dirty ∧
      c.depth = r.copies.length ∧
      ∀ request e, (c.serve request).1 = .failed e → (c.serve request).2 = c := by
  classical
  obtain ⟨hreplies, hend⟩ := (Reference.Depicts.empty kind).serveAll requests
  exact ⟨hreplies, hend.dirty, hend.depth, fun _ _ => serve_of_failed⟩

/-- A key is written, then deleted and written again in nested checkpoints, while the clean layer
has room for one other key. -/
def nestedWrites : List (Request Nat Nat) :=
  [.put 1 10, .checkpoint, .del 1, .checkpoint, .put 1 30, .commit, .fill 2 (some 7), .fill 3 none,
    .get 2, .flush, .revert, .get 1, .commit, .flush]

theorem serveAll_admitted_nestedWrites :
    let (replies, c) := serveAll nestedWrites (empty (.recent 1))
    let (expected, r) := Reference.serveAll nestedWrites {}
    List.Forall₂ Expected.Admits expected replies ∧ c.dirty = r.dirty ∧
      c.depth = r.copies.length ∧
      ∀ request e, (c.serve request).1 = .failed e → (c.serve request).2 = c :=
  serveAll_admitted (.recent 1) nestedWrites

/-- What is found of a key in the clean layer is lost to another key, but not what is pending. -/
example : (serveAll nestedWrites (empty (.recent 1))).1 =
    [.done, .done, .done, .done, .done, .done, .done, .done, .found .unknown,
      .failed (.openCheckpoints 1), .done, .found (.present 10), .failed .noCheckpoint,
      .entries [(1, some 10)]] := by
  decide +kernel

end Cache

end Evm
