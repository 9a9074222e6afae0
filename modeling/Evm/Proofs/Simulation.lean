import Evm.Proofs.Invariant

/-!
# Programs in related states

Two programs of one shape, over states of two types, that cannot be told apart: in related states
they give the same and leave related states (`Alike`). As with invariants, this is built up along
the structure of the programs. The diagonal of an invariant is a relation too, so two programs that
do the same wherever an invariant holds, which they keep, are a special case.
-/

namespace Evm

variable {σ τ ε α β : Type} {R : σ → τ → Prop}

/-- In related states both operations give the same, and leave related states. -/
def Alike (R : σ → τ → Prop) (op : StateM σ α) (op' : StateM τ α) : Prop :=
  ∀ s t, R s t → (op s).1 = (op' t).1 ∧ R (op s).2 (op' t).2

/-- The two states are the same, and the invariant holds of them. -/
def Diagonal (I : σ → Prop) (s t : σ) : Prop := s = t ∧ I s

namespace Alike

lemma pure (a : α) : Alike R (Pure.pure a : StateM σ α) (Pure.pure a : StateM τ α) :=
  fun _ _ h => ⟨rfl, h⟩

lemma bind {op : StateM σ α} {op' : StateM τ α} {q : α → StateM σ β} {q' : α → StateM τ β}
    (hop : Alike R op op') (hq : ∀ a, Alike R (q a) (q' a)) :
    Alike R (op >>= q) (op' >>= q') := by
  intro s t h
  obtain ⟨heq, hst⟩ := hop s t h
  change ((q (op s).1) (op s).2).1 = ((q' (op' t).1) (op' t).2).1 ∧
    R ((q (op s).1) (op s).2).2 ((q' (op' t).1) (op' t).2).2
  rw [heq]
  exact hq _ _ _ hst

/-- What comes after a look at the state may depend on all of it. -/
lemma get_bind {q : σ → StateM σ β} {q' : τ → StateM τ β}
    (hq : ∀ s t, R s t → (q s s).1 = (q' t t).1 ∧ R (q s s).2 (q' t t).2) :
    Alike R (MonadState.get >>= q) (MonadState.get >>= q') :=
  hq

/-- What comes after two operations in given states may depend on what their results have in
common. -/
lemma bind_at {γ : Type} {op : StateM σ α} {op' : StateM τ α} {q : γ → StateM σ β}
    {q' : γ → StateM τ β} {s : σ} {t : τ} (view : α → γ)
    (hop : view (op s).1 = view (op' t).1 ∧ R (op s).2 (op' t).2) (hq : ∀ c, Alike R (q c) (q' c)) :
    ((op >>= fun a => q (view a)) s).1 = ((op' >>= fun a => q' (view a)) t).1 ∧
      R ((op >>= fun a => q (view a)) s).2 ((op' >>= fun a => q' (view a)) t).2 := by
  obtain ⟨heq, hst⟩ := hop
  change (q (view (op s).1) (op s).2).1 = (q' (view (op' t).1) (op' t).2).1 ∧
    R (q (view (op s).1) (op s).2).2 (q' (view (op' t).1) (op' t).2).2
  rw [heq]
  exact hq _ _ _ hst

/-- Operations that do the same wherever an invariant holds, which they keep. -/
lemma diagonal {I : σ → Prop} {op op' : StateM σ α} (h : ∀ s, I s → op s = op' s ∧ I (op s).2) :
    Alike (Diagonal I) op op' := by
  rintro s _ ⟨rfl, hs⟩
  obtain ⟨heq, hI⟩ := h s hs
  rw [heq] at hI ⊢
  exact ⟨rfl, rfl, hI⟩

lemma of_diagonal {I : σ → Prop} {op op' : StateM σ α} (h : Alike (Diagonal I) op op') {s : σ}
    (hs : I s) : op s = op' s ∧ I (op s).2 := by
  obtain ⟨hfst, hsnd, hI⟩ := h s s ⟨rfl, hs⟩
  exact ⟨Prod.ext hfst hsnd, hI⟩

end Alike

/-! ## Programs that may fail -/

/-- In related states both programs give the same or fail alike, and leave related states. -/
def Program.Alike (R : σ → τ → Prop) (p : Program ε σ α) (p' : Program ε τ α) : Prop :=
  Evm.Alike R p.run p'.run

namespace Program.Alike

variable {p : Program ε σ α} {p' : Program ε τ α} {q : α → Program ε σ β} {q' : α → Program ε τ β}

lemma pure (a : α) :
    Program.Alike R (Pure.pure a : Program ε σ α) (Pure.pure a : Program ε τ α) :=
  fun _ _ h => ⟨rfl, h⟩

lemma throw (e : ε) : Program.Alike R (MonadExcept.throw e : Program ε σ α)
    (MonadExcept.throw e : Program ε τ α) :=
  fun _ _ h => ⟨rfl, h⟩

/-- A program does what it does. -/
lemma refl (p : Program ε σ α) : Program.Alike Eq p p := by
  rintro s _ rfl
  exact ⟨rfl, rfl⟩

lemma bind (hp : Program.Alike R p p') (hq : ∀ a, Program.Alike R (q a) (q' a)) :
    Program.Alike R (p >>= q) (p' >>= q') := by
  intro s t h
  obtain ⟨heq, hst⟩ := hp s t h
  rw [Program.run_bind, Program.run_bind]
  rcases hs : p.run s with ⟨r, s'⟩
  rcases ht : p'.run t with ⟨r', t'⟩
  rw [hs, ht] at heq hst
  obtain rfl : r = r' := heq
  cases r with
  | error e => exact ⟨rfl, hst⟩
  | ok a => exact hq a s' t' hst

/-- What comes after a look at the state may depend on what related states have in common. -/
lemma get_bind {q : σ → Program ε σ β} {q' : τ → Program ε τ β}
    (hq : ∀ s t, R s t → Program.Alike R (q s) (q' t)) :
    Program.Alike R (MonadState.get >>= q) (MonadState.get >>= q') :=
  fun s t h => hq s t h s t h

lemma modify {f : σ → σ} {g : τ → τ} (h : ∀ s t, R s t → R (f s) (g t)) :
    Program.Alike R (modify f : Program ε σ PUnit) (modify g : Program ε τ PUnit) :=
  fun s t hst => ⟨rfl, h s t hst⟩

lemma ite {c : Prop} [Decidable c] {p₁ : Program ε σ α} {p₁' : Program ε τ α}
    (hp : Program.Alike R p p') (hp₁ : Program.Alike R p₁ p₁') :
    Program.Alike R (if c then p else p₁) (if c then p' else p₁') := by
  split
  · exact hp
  · exact hp₁

end Program.Alike

/-! ## Programs that lead to another relation -/

/-- In states related by `R` both programs give the same or fail alike, and leave states related by
`R'`. -/
def Program.Leads (R R' : σ → τ → Prop) (p : Program ε σ α) (p' : Program ε τ α) : Prop :=
  ∀ s t, R s t → (p.run s).1 = (p'.run t).1 ∧ R' (p.run s).2 (p'.run t).2

namespace Program.Leads

variable {R' R'' : σ → τ → Prop} {p : Program ε σ α} {p' : Program ε τ α} {q : α → Program ε σ β}
  {q' : α → Program ε τ β}

lemma of_alike (h : Program.Alike R p p') : Program.Leads R R p p' := h

/-- If the first program fails, the second relation has to do for the last. -/
lemma bind (hp : Program.Leads R R' p p') (hq : ∀ a, Program.Leads R' R'' (q a) (q' a))
    (h : ∀ s t, R' s t → R'' s t) : Program.Leads R R'' (p >>= q) (p' >>= q') := by
  intro s t hst
  obtain ⟨heq, hst'⟩ := hp s t hst
  rw [Program.run_bind, Program.run_bind]
  rcases hs : p.run s with ⟨r, s'⟩
  rcases ht : p'.run t with ⟨r', t'⟩
  rw [hs, ht] at heq hst'
  obtain rfl : r = r' := heq
  cases r with
  | error e => exact ⟨rfl, h s' t' hst'⟩
  | ok a => exact hq a s' t' hst'

/-- What comes after a look at the state may depend on what related states have in common. -/
lemma get_bind {q : σ → Program ε σ β} {q' : τ → Program ε τ β}
    (hq : ∀ s t, R s t → Program.Leads R R' (q s) (q' t)) :
    Program.Leads R R' (MonadState.get >>= q) (MonadState.get >>= q') :=
  fun s t h => hq s t h s t h

end Program.Leads

/-! ## Operations of a host -/

/-- In related states both operations have the same answer or none, and leave related states. -/
def HostM.Alike (R : σ → τ → Prop) (op : HostM σ α) (op' : HostM τ α) : Prop :=
  Evm.Alike R op.run op'.run

namespace HostM.Alike

variable {op : HostM σ α} {op' : HostM τ α} {q : α → HostM σ β} {q' : α → HostM τ β}

lemma pure (a : α) : HostM.Alike R (Pure.pure a : HostM σ α) (Pure.pure a : HostM τ α) :=
  fun _ _ h => ⟨rfl, h⟩

lemma bind (hop : HostM.Alike R op op') (hq : ∀ a, HostM.Alike R (q a) (q' a)) :
    HostM.Alike R (op >>= q) (op' >>= q') := by
  intro s t h
  obtain ⟨heq, hst⟩ := hop s t h
  rw [HostM.run_bind, HostM.run_bind]
  rcases hs : op.run s with ⟨a?, s'⟩
  rcases ht : op'.run t with ⟨b?, t'⟩
  rw [hs, ht] at heq hst
  obtain rfl : a? = b? := heq
  cases a? with
  | none => exact ⟨rfl, hst⟩
  | some a => exact hq a s' t' hst

/-- What comes after a look at the state may depend on what related states have in common. -/
lemma get_bind {q : σ → HostM σ β} {q' : τ → HostM τ β}
    (hq : ∀ s t, R s t → HostM.Alike R (q s) (q' t)) :
    HostM.Alike R (MonadState.get >>= q) (MonadState.get >>= q') :=
  fun s t h => hq s t h s t h

lemma modify {f : σ → σ} {g : τ → τ} (h : ∀ s t, R s t → R (f s) (g t)) :
    HostM.Alike R (modify f : HostM σ PUnit) (modify g : HostM τ PUnit) :=
  fun s t hst => ⟨rfl, h s t hst⟩

lemma lift {op : StateM σ α} {op' : StateM τ α} (h : Evm.Alike R op op') :
    HostM.Alike R (liftM op) (liftM op') := by
  intro s t hst
  obtain ⟨heq, hst'⟩ := h s t hst
  exact ⟨congrArg some heq, hst'⟩

end HostM.Alike

end Evm
