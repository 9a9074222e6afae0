import Evm.Proofs.State.TwinFlush

/-!
# Requests to a world

All that a world can be asked for, as data: reads, writes, deletions, checkpoints and flushes. A
world that forgets what it has read of the store answers every sequence of requests as one does that
keeps all, and writes the same (`World.serveAll_recent`).
-/

namespace Evm

namespace World

/-- A request to a world. -/
inductive Request where
  | account (a : Address)
  | accountOrEmpty (a : Address)
  | exists? (a : Address)
  | putAccount (a : Address) (record : Account)
  | deleteAccount (a : Address)
  | clearStorage (a : Address)
  | incarnation (a : Address)
  | slot (a : Address) (index : Word)
  | setSlot (a : Address) (index value : Word)
  | flushedSlot (a : Address) (index : Word)
  | putCode (code : Code)
  | codeOfHash (hash : Hash)
  | codeOf (a : Address)
  | checkpoint
  | commit
  | revert
  | depth
  | flush

/-- An answer to a request. -/
inductive Reply where
  | account (record? : Option Account)
  | record (record : Account)
  | flag (value : Bool)
  | incarnation (n : UInt64)
  | word (value : Word)
  | code (code : Code)
  | count (n : Nat)
  | done
  | flushed (changes : Changeset)

/-- Closes a checkpoint. A failure leaves the world as it was. -/
def closing (close : World → Except CacheError World) : WorldM Unit := do
  match close (← get) with
  | .error e => throw (.cache e)
  | .ok w => set w

/-- Answers a request. -/
def serve : Request → WorldM Reply
  | .account a => return .account (← account a)
  | .accountOrEmpty a => return .record (← accountOrEmpty a)
  | .exists? a => return .flag (← exists? a)
  | .putAccount a record => do
    putAccount a record
    return .done
  | .deleteAccount a => do
    deleteAccount a
    return .done
  | .clearStorage a => do
    clearStorage a
    return .done
  | .incarnation a => return .incarnation (← incarnation a)
  | .slot a index => return .word (← slot a index)
  | .setSlot a index value => do
    setSlot a index value
    return .done
  | .flushedSlot a index => return .word (← flushedSlot a index)
  | .putCode code => do
    putCode code
    return .done
  | .codeOfHash hash => return .code (← codeOfHash hash)
  | .codeOf a => return .code (← codeOf a)
  | .checkpoint => do
    modify checkpoint
    return .done
  | .commit => do
    closing commit
    return .done
  | .revert => do
    closing revert
    return .done
  | .depth => return .count (← get).depth
  | .flush => return .flushed (← flush)

/-- Answers requests one after the other. -/
def serveAll : List Request → World → List (Except StateError Reply) × World
  | [], w => ([], w)
  | request :: rest, w =>
    let (reply, w) := (serve request).run w
    let (replies, w) := serveAll rest w
    (reply :: replies, w)

/-- The account whose incarnation the request raises, if it does. -/
def Request.raised? : Request → Option Address
  | .deleteAccount a | .clearStorage a => some a
  | _ => none

/-- The request would raise an incarnation past the largest one. -/
def Overflows (w : World) (request : Request) : Prop :=
  request.raised?.any fun a => w.readIncarnation a = .ok (UInt64.ofNat Count.max)

instance (w : World) (request : Request) : Decidable (w.Overflows request) :=
  inferInstanceAs (Decidable (_ = true))

/-- No incarnation overflows while the requests are answered. -/
def NoneOverflows : List Request → World → Prop
  | [], _ => True
  | request :: rest, w => ¬w.Overflows request ∧ NoneOverflows rest ((serve request).run w).2

instance decidableNoneOverflows :
    (requests : List Request) → (w : World) → Decidable (NoneOverflows requests w)
  | [], _ => .isTrue trivial
  | request :: rest, w =>
    have := decidableNoneOverflows rest ((serve request).run w).2
    inferInstanceAs (Decidable (_ ∧ _))

/-! ## Twins -/

/-- Two worlds over the same store that differ in what their clean layers remember. -/
structure Like (budget : Budget) (w w' : World) : Prop where
  twins : Twins budget w w'
  opened : ∃ n, w.Open n

variable {budget budget' : Budget} {w w' w₁ : World}

lemma Like.mono (h : Like budget w w') (hused : ∀ a, budget.used a ≤ budget'.used a)
    (hleft : ∀ a, budget'.left a ≤ budget.left a) : Like budget' w w' :=
  ⟨h.twins.mono hused hleft, h.opened⟩

/-- What an operation does to the budget: a flush leaves what has not been used. -/
def Follows (budget : Budget) (w : World) (budget' : Budget) (w₁ : World) : Prop :=
  budget' = budget ∧ w₁.store = w.store ∨ budget' = budget.flushed w.store w₁.store ∧
    ∀ a, w.store.age a (w₁.store.incarnation a) ≤ budget.used a

/-- The operation gives the same in both worlds, and they stay alike. -/
def LikeOp {α : Type} (budget : Budget) (op : WorldM α) (w w' : World) : Prop :=
  (op.run w).1 = (op.run w').1 ∧
    ∃ budget', Like budget' (op.run w).2 (op.run w').2 ∧ Follows budget w budget' (op.run w).2

/-- What is made of what an operation gives does not matter. -/
lemma LikeOp.reply {α : Type} {op : WorldM α} (h : LikeOp budget op w w') (f : α → Reply) :
    LikeOp budget (do return f (← op)) w w' := by
  have hrun (w : World) :
      (do return f (← op) : WorldM Reply).run w = ((op.run w).1.map f, (op.run w).2) := by
    rw [Program.run_bind]
    rcases op.run w with ⟨_ | a, w₁⟩ <;> rfl
  obtain ⟨hsame, hlike⟩ := h
  rw [LikeOp, hrun, hrun]
  exact ⟨congrArg (Except.map f) hsame, hlike⟩

/-- Twins in which an operation goes on from the open checkpoints. -/
lemma Like.op {α : Type} {op : WorldM α} (h : Like budget w w')
    (htwins : (op.run w).1 = (op.run w').1 ∧ Twins budget (op.run w).2 (op.run w').2)
    (hkeeps : ∀ w₀ : World, Keeps w₀.Continues op) : LikeOp budget op w w' := by
  obtain ⟨n, hn⟩ := h.opened
  have hw := hkeeps w w (.refl w)
  exact ⟨htwins.1, budget, ⟨htwins.2, n, hn.continues hw⟩, .inl ⟨rfl, hw.store⟩⟩

lemma keeps_clearStorage {w₀ : World} (a : Address) : Keeps w₀.Continues (clearStorage a) :=
  (keeps_incarnation a).bind fun _ => Table.keeps_put Table.steady_incarnations a _

/-! ### Checkpoints and flushes -/

lemma Open.twin {n : Nat} (hn : w.Open n) (h : Twins budget w w') : w'.Open n :=
  ⟨(congrArg List.length h.accounts.diffs).symm.trans hn.accounts,
    (congrArg List.length h.storage.diffs).symm.trans hn.storage,
    (congrArg List.length h.code.diffs).symm.trans hn.code,
    (congrArg List.length h.incarnations.diffs).symm.trans hn.incarnations⟩

lemma Closed.open (h : w.Closed) : w.Open 0 :=
  ⟨congrArg List.length h.accounts, congrArg List.length h.storage, congrArg List.length h.code,
    congrArg List.length h.incarnations⟩

lemma closing_run {close : World → Except CacheError World} (w : World) :
    (closing close).run w =
      match close w with
      | .ok w₁ => (.ok (), w₁)
      | .error e => (.error (.cache e), w) := by
  unfold closing
  rw [Program.run_bind_ok (Program.run_get _)]
  cases close w <;> rfl

/-- Closing a checkpoint keeps worlds alike. -/
lemma Like.closing {close : World → Except CacheError World} (h : Like budget w w')
    (hclose : AlikeResult (Twins budget) (close w) (close w'))
    (hopen : ∀ w₁, close w = .ok w₁ → w₁.store = w.store ∧ ∃ n, w₁.Open n) :
    LikeOp budget (closing close) w w' := by
  rw [LikeOp, closing_run, closing_run]
  generalize hr : close w = r, close w' = r' at hclose
  cases hclose with
  | error e => exact ⟨rfl, budget, h, .inl ⟨rfl, rfl⟩⟩
  | ok h₁ =>
    obtain ⟨hstore, hn⟩ := hopen _ hr
    exact ⟨rfl, budget, ⟨h₁, hn⟩, .inl ⟨rfl, hstore⟩⟩

lemma Like.commit (h : Like budget w w') : LikeOp budget (World.closing World.commit) w w' := by
  refine h.closing h.twins.commit fun w₁ hw₁ => ⟨store_of_commit hw₁, ?_⟩
  obtain ⟨n, hn⟩ := h.opened
  cases n with
  | zero => cases (commit_of_closed hn.closed).symm.trans hw₁
  | succ n =>
    obtain ⟨w₂, hw₂, hopen⟩ := hn.commit
    obtain rfl := Except.ok.inj (hw₂.symm.trans hw₁)
    exact ⟨n, hopen⟩

lemma Like.revert (h : Like budget w w') : LikeOp budget (World.closing World.revert) w w' := by
  refine h.closing h.twins.revert fun w₁ hw₁ => ⟨store_of_revert hw₁, ?_⟩
  obtain ⟨n, hn⟩ := h.opened
  cases n with
  | zero => cases (revert_of_closed hn.closed).symm.trans hw₁
  | succ n =>
    obtain ⟨w₂, hw₂, hopen⟩ := hn.revert
    obtain rfl := Except.ok.inj (hw₂.symm.trans hw₁)
    exact ⟨n, hopen⟩

/-- Writing everything to the store keeps worlds alike. -/
lemma Like.flush (h : Like budget w w') : LikeOp budget World.flush w w' := by
  obtain ⟨htw, n, hn⟩ := h
  rw [LikeOp]
  cases n with
  | zero =>
    obtain ⟨pending, w₁, w₁', hrun, hrun', h₁, hclosed, -, hcurrent⟩ := htw.flush hn.closed
    rw [hrun.flush, hrun'.flush]
    refine ⟨rfl, _, ⟨h₁, 0, hclosed.open⟩, .inr ⟨rfl, fun a => ?_⟩⟩
    rw [hcurrent]
    exact htw.orderly.age_incarnationIn List.mem_cons_self a
  | succ n =>
    rw [flush_of_open hn, flush_of_open (hn.twin htw)]
    exact ⟨rfl, budget, ⟨htw, n + 1, hn⟩, .inl ⟨rfl, rfl⟩⟩

/-! ### Sequences of requests -/

/-- Worlds that are alike give the same answer to a request and stay alike. -/
theorem Like.serve (h : Like budget w w') (request : Request)
    (hroom : ∀ a ∈ request.raised?, w.HasRoom budget a) : LikeOp budget (serve request) w w' := by
  have hsim := simulation_twins budget
  cases request with
  | account a => exact (h.op (hsim.account a _ _ h.twins) fun _ => keeps_account a).reply _
  | accountOrEmpty a =>
    exact (h.op (hsim.accountOrEmpty a _ _ h.twins) fun _ => keeps_accountOrEmpty a).reply _
  | exists? a => exact (h.op (hsim.exists? a _ _ h.twins) fun _ => keeps_exists? a).reply _
  | putAccount a record =>
    exact (h.op (hsim.putAccount a record _ _ h.twins) fun _ => keeps_putAccount a record).reply
      fun _ => .done
  | deleteAccount a =>
    exact (h.op (h.twins.deleteAccount (hroom a rfl)) fun _ => keeps_deleteAccount a).reply
      fun _ => .done
  | clearStorage a =>
    exact (h.op (h.twins.clearStorage (hroom a rfl)) fun _ => keeps_clearStorage a).reply
      fun _ => .done
  | incarnation a =>
    exact (h.op (alike_incarnation a _ _ h.twins) fun _ => keeps_incarnation a).reply _
  | slot a index => exact (h.op (hsim.slot a index _ _ h.twins) fun _ => keeps_slot a index).reply _
  | setSlot a index value =>
    exact (h.op (hsim.setSlot a index value _ _ h.twins) fun _ => keeps_setSlot a index value).reply
      fun _ => .done
  | flushedSlot a index =>
    exact (h.op (hsim.flushedSlot a index _ _ h.twins) fun _ => keeps_flushedSlot a index).reply _
  | putCode code =>
    exact (h.op (hsim.putCode code _ _ h.twins) fun _ => keeps_putCode code).reply fun _ => .done
  | codeOfHash hash =>
    exact (h.op (hsim.codeOfHash hash _ _ h.twins) fun _ => keeps_codeOfHash hash).reply _
  | codeOf a => exact (h.op (hsim.codeOf a _ _ h.twins) fun _ => keeps_codeOf a).reply _
  | checkpoint =>
    obtain ⟨htw, n, hn⟩ := h
    exact ⟨rfl, budget, ⟨htw.checkpoint, n + 1, hn.checkpoint⟩, .inl ⟨rfl, rfl⟩⟩
  | commit => exact h.commit.reply fun _ => .done
  | revert => exact h.revert.reply fun _ => .done
  | depth =>
    have hdepth : w.depth = w'.depth := hsim.depth h.twins
    exact ⟨congrArg (fun n => Except.ok (Reply.count n)) hdepth, budget, h, .inl ⟨rfl, rfl⟩⟩
  | flush => exact h.flush.reply _

/-! ## Fresh worlds -/

lemma settled_ofStore (s : Store) (kind : CleanKind) : (ofStore s kind).Settled :=
  ⟨rfl, rfl, rfl, rfl⟩

lemma mirrors_ofStore (s : Store) (kind : CleanKind) : (ofStore s kind).Mirrors budget :=
  ⟨fun _ => CleanLayer.mirrors_empty kind, fun _ _ => CleanLayer.mirrors_empty kind,
    fun _ => CleanLayer.mirrors_empty kind, fun _ => CleanLayer.mirrors_empty kind⟩

/-- Fresh worlds over the same store are alike, whatever they will remember. -/
lemma like_ofStore {s : Store} (h : s.faults = {}) (kind kind' : CleanKind) :
    Like budget (ofStore s kind) (ofStore s kind') where
  twins := ⟨rfl, ⟨rfl, rfl⟩, ⟨rfl, rfl⟩, ⟨rfl, rfl⟩, ⟨rfl, rfl⟩,
    (settled_ofStore s kind).orderly (Open.ofStore s kind).closed h, mirrors_ofStore s kind,
    mirrors_ofStore s kind'⟩
  opened := ⟨0, .ofStore s kind⟩

/-! ## Sequences of requests without overflows -/

/-- The budget that allows to raise every incarnation of a store up to the largest one. -/
def upToMax (s : Store) : Budget where
  used a := Count.max - (s.incarnation a).toNat
  left a := Count.max - (s.incarnation a).toNat
  used_le _ := le_rfl
  left_lt _ := (Nat.sub_le _ _).trans_lt (by decide)

/-- Short of the largest one, an incarnation may be raised. -/
lemma hasRoom_upToMax (h : Twins (upToMax w.store) w w') {a : Address}
    (hmax : w.readIncarnation a ≠ .ok (UInt64.ofNat Count.max)) : w.HasRoom (upToMax w.store) a := by
  intro n hn
  have hage : w.store.age a n ≤ Count.max - (w.store.incarnation a).toNat :=
    h.orderly.age_le h.mirrors hn
  have hne : n.toNat ≠ Count.max := fun heq => hmax (by rw [hn, ← heq, UInt64.ofNat_toNat])
  change _ < Count.max - (w.store.incarnation a).toNat
  rw [Store.age, UInt64.toNat_sub] at hage ⊢
  have h₁ := n.toNat_lt
  have h₂ := (w.store.incarnation a).toNat_lt
  unfold Count.max at hne hage ⊢
  omega

/-- Worlds that are alike stay so up to the largest incarnations. -/
lemma Like.upToMax (h : Like budget' w₁ w') (hfollows : Follows (upToMax w.store) w budget' w₁) :
    Like (World.upToMax w₁.store) w₁ w' := by
  rcases hfollows with ⟨rfl, hstore⟩ | ⟨rfl, hage⟩
  · rwa [hstore]
  · refine h.mono (fun a => Nat.zero_le _) fun a => ?_
    have hle : w.store.age a (w₁.store.incarnation a) ≤
      Count.max - (w.store.incarnation a).toNat := hage a
    change Count.max - _ ≤ Count.max - (w.store.incarnation a).toNat - w.store.age a _
    rw [Store.age, UInt64.toNat_sub] at hle ⊢
    have h₁ := (w₁.store.incarnation a).toNat_lt
    have h₂ := (w.store.incarnation a).toNat_lt
    unfold Count.max at hle ⊢
    omega

/-- Worlds that are alike give the same answers to any requests, and keep the same store. -/
lemma Like.serveAll {requests : List Request} (h : Like (World.upToMax w.store) w w')
    (hr : NoneOverflows requests w) :
    (serveAll requests w).1 = (serveAll requests w').1 ∧
      ∃ budget', Like budget' (serveAll requests w).2 (serveAll requests w').2 := by
  induction requests generalizing w w' with
  | nil => exact ⟨rfl, _, h⟩
  | cons request rest ih =>
    have hroom (a : Address) (ha : a ∈ request.raised?) :
        w.HasRoom (World.upToMax w.store) a := by
      refine hasRoom_upToMax h.twins fun hmax => hr.1 ?_
      rw [Overflows, Option.mem_def.1 ha]
      exact decide_eq_true hmax
    obtain ⟨hreply, budget', h₁, hfollows⟩ := h.serve request hroom
    obtain ⟨hreplies, h₂⟩ := ih (h₁.upToMax hfollows) hr.2
    exact ⟨congrArg₂ List.cons hreply hreplies, h₂⟩

/-- A world that remembers a number of entries only answers all requests as one does that remembers
all, and leaves the same store, unless an incarnation overflows. -/
theorem serveAll_recent (entries : Std.ExtTreeMap Key Bytes) (capacity : Nat)
    {requests : List Request} (h : NoneOverflows requests (ofStore { entries } .ordered)) :
    (serveAll requests (ofStore { entries } (.recent capacity))).1 =
        (serveAll requests (ofStore { entries } .ordered)).1 ∧
      (serveAll requests (ofStore { entries } (.recent capacity))).2.store =
        (serveAll requests (ofStore { entries } .ordered)).2.store := by
  obtain ⟨hreplies, _, hlike⟩ :=
    (like_ofStore (s := { entries }) rfl .ordered (.recent capacity)).serveAll h
  exact ⟨hreplies.symm, hlike.twins.store.symm⟩

/-- An account gets a slot, is deleted, and gets the slot again in a checkpoint that is undone. -/
def recreation : List Request :=
  [.putAccount 1 {}, .setSlot 1 0 7, .flush, .deleteAccount 1, .checkpoint, .setSlot 1 0 8, .revert,
    .flush, .slot 1 0, .flushedSlot 1 0]

theorem serveAll_recent_recreation :
    (serveAll recreation (ofStore {} (.recent 1))).1 =
        (serveAll recreation (ofStore {} .ordered)).1 ∧
      (serveAll recreation (ofStore {} (.recent 1))).2.store =
        (serveAll recreation (ofStore {} .ordered)).2.store :=
  serveAll_recent ∅ 1 (by decide +kernel)

/-! ## Sound worlds -/

/-- A budget that is larger than the number of requests is not used up by them. -/
lemma Like.serveAll_evenly {requests : List Request} {used left spare : Nat} {hused : used ≤ left}
    {hleft : left < 2 ^ 64} (h : Like (.evenly used left hused hleft) w w')
    (hroom : used + requests.length + spare ≤ left) :
    (World.serveAll requests w).1 = (World.serveAll requests w').1 ∧
      ∃ used' left', ∃ (hused' : used' ≤ left') (hleft' : left' < 2 ^ 64),
        Like (.evenly used' left' hused' hleft') (World.serveAll requests w).2
          (World.serveAll requests w').2 ∧ used' + spare ≤ left' := by
  induction requests generalizing w w' used left with
  | nil => exact ⟨rfl, used, left, hused, hleft, h, hroom⟩
  | cons request rest ih =>
    rw [List.length_cons] at hroom
    have hraised : used + 1 ≤ left := by omega
    have h₀ : Like (.evenly (used + 1) left hraised hleft) w w' :=
      h.mono (fun _ => used.le_succ) fun _ => le_rfl
    have hage (a : Address) (_ : a ∈ request.raised?) :
        w.HasRoom (.evenly (used + 1) left hraised hleft) a :=
      fun n hn => Nat.lt_succ_of_le (h.twins.orderly.age_le h.twins.mirrors hn)
    obtain ⟨hreply, budget', h₁, ⟨rfl, -⟩ | ⟨rfl, hflushed⟩⟩ := h₀.serve request hage
    · obtain ⟨hreplies, hlike⟩ := ih h₁ (by omega)
      exact ⟨congrArg₂ List.cons hreply hreplies, hlike⟩
    · have h₂ : Like (.evenly 0 (left - (used + 1)) (Nat.zero_le _)
          ((Nat.sub_le _ _).trans_lt hleft)) ((World.serve request).run w).2
          ((World.serve request).run w').2 :=
        h₁.mono (fun _ => le_rfl) fun a => Nat.sub_le_sub_left (hflushed a) left
      obtain ⟨hreplies, hlike⟩ := ih h₂ (by omega)
      exact ⟨congrArg₂ List.cons hreply hreplies, hlike⟩

/-- The world is in good order, its clean layers mirror the store, and every incarnation may be raised
that many times more. -/
def Sound (spare : Nat) (w : World) : Prop :=
  ∃ used left, ∃ (hused : used ≤ left) (hleft : left < 2 ^ 64),
    Like (.evenly used left hused hleft) w w ∧ used + spare ≤ left

namespace Sound

variable {spare spare' : Nat}

lemma mono (h : w.Sound spare') (hle : spare ≤ spare') : w.Sound spare := by
  obtain ⟨used, left, hused, hleft, hlike, hroom⟩ := h
  exact ⟨used, left, hused, hleft, hlike, (Nat.add_le_add_left hle used).trans hroom⟩

/-- A fresh world over a store that does not fail. -/
lemma ofStore (entries : Std.ExtTreeMap Key Bytes) (kind : CleanKind) :
    (World.ofStore { entries } kind).Sound Count.max :=
  ⟨0, Count.max, Nat.zero_le _, by decide, like_ofStore rfl kind kind, (Nat.zero_add _).le⟩

/-- Each request raises an incarnation once at most. -/
lemma serveAll {requests : List Request} (h : w.Sound (requests.length + spare)) :
    (World.serveAll requests w).2.Sound spare := by
  obtain ⟨used, left, hused, hleft, hlike, hroom⟩ := h
  exact (hlike.serveAll_evenly ((Nat.add_assoc _ _ _).trans_le hroom)).2

lemma serve (h : w.Sound (spare + 1)) (request : Request) :
    ((World.serve request).run w).2.Sound spare := by
  have hone : w.Sound ([request].length + spare) := h.mono (Nat.add_comm _ _).le
  exact hone.serveAll

/-- Whatever a sound world forgets can be read again. -/
lemma refetchable (h : w.Sound spare) : w.Refetchable := by
  obtain ⟨_, _, _, _, ⟨htwins, -⟩, -⟩ := h
  have ho := htwins.orderly
  have hm := htwins.mirrors
  exact
    { accounts := fun a => .inr (hm.accounts a)
      code := fun hash => .inr (hm.code hash)
      incarnations := fun a => .inr (hm.incarnations a)
      storage := fun a n index hn =>
        .inr (hm.storage ⟨a, n, index⟩ ((ho.age_le hm hn).trans (Budget.used_le _ a))) }

end Sound

/-! ## Reachable worlds -/

/-- The world is what some requests make of a fresh one over a store that does not fail. There are
so few of them that no incarnation has come halfway round. -/
def Reachable (w : World) : Prop :=
  ∃ (entries : Std.ExtTreeMap Key Bytes) (kind : CleanKind) (requests : List Request),
    requests.length < 2 ^ 63 ∧ (serveAll requests (ofStore { entries } kind)).2 = w

/-- A reachable world is sound, and incarnations may be raised as often again. -/
theorem Reachable.like (h : w.Reachable) : w.Sound (2 ^ 63) := by
  obtain ⟨entries, kind, requests, hlength, rfl⟩ := h
  refine ((Sound.ofStore entries kind).mono ?_).serveAll
  unfold Count.max
  omega

/-- Whatever a reachable world forgets can be read again. -/
lemma Reachable.refetchable (h : w.Reachable) : w.Refetchable := h.like.refetchable

end World

end Evm
