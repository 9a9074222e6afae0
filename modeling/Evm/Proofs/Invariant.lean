import Mathlib.Tactic
import Evm.Execution.Basic

/-!
# Invariants of programs

Every layer of the machine is written in a monad of one shape: a state that survives failure, and
failures on top of it. `Keeps I p` says that the program `p` keeps the invariant `I` of the state
however it ends, and the lemmas build that up along the structure of a program. An invariant of the
form "related to the state at the start" turns this into a relation between start and end.
-/

namespace Evm

variable {σ ε ε' α β : Type}

/-- Programs with a state of type `σ` and failures of type `ε`; a failure leaves the state as it
was reached. -/
abbrev Program (ε σ α : Type) := ExceptT ε (StateM σ) α

/-! ## Runs -/

namespace Program

@[simp] lemma run_pure (a : α) (s : σ) : (pure a : Program ε σ α).run s = (.ok a, s) := rfl

@[simp] lemma run_throw (e : ε) (s : σ) : (throw e : Program ε σ α).run s = (.error e, s) := rfl

/-- The run of a sequence of programs. -/
lemma run_bind (p : Program ε σ α) (q : α → Program ε σ β) (s : σ) :
    (p >>= q).run s =
      match p.run s with
      | (.ok a, s') => (q a).run s'
      | (.error e, s') => (.error e, s') := by
  have h : (p >>= q).run s =
      match p.run s with
      | (r, s') => (ExceptT.bindCont q r : StateM σ (Except ε β)) s' := rfl
  rw [h]
  rcases p.run s with ⟨r, s'⟩
  cases r <;> rfl

lemma run_bind_ok {p : Program ε σ α} {q : α → Program ε σ β} {s s' : σ} {a : α}
    (h : p.run s = (.ok a, s')) : (p >>= q).run s = (q a).run s' := by
  rw [run_bind, h]

lemma run_bind_error {p : Program ε σ α} {q : α → Program ε σ β} {s s' : σ} {e : ε}
    (h : p.run s = (.error e, s')) : (p >>= q).run s = (.error e, s') := by
  rw [run_bind, h]

/-- A sequence that gives something does so step by step. -/
lemma run_bind_eq_ok {p : Program ε σ α} {q : α → Program ε σ β} {s s' : σ} {b : β}
    (h : (p >>= q).run s = (.ok b, s')) :
    ∃ a s₁, p.run s = (.ok a, s₁) ∧ (q a).run s₁ = (.ok b, s') := by
  rw [run_bind] at h
  split at h
  · exact ⟨_, _, by assumption, h⟩
  · cases h

@[simp] lemma run_get (s : σ) : (get : Program ε σ σ).run s = (.ok s, s) := rfl

@[simp] lemma run_set (s s' : σ) : (set s' : Program ε σ PUnit).run s = (.ok ⟨⟩, s') := rfl

@[simp] lemma run_modify (f : σ → σ) (s : σ) :
    (modify f : Program ε σ PUnit).run s = (.ok ⟨⟩, f s) := rfl

lemma run_tryCatch (p : Program ε σ α) (q : ε → Program ε σ α) (s : σ) :
    (tryCatch p q : Program ε σ α).run s =
      match p.run s with
      | (.ok a, s') => (.ok a, s')
      | (.error e, s') => (q e).run s' := by
  have h : (tryCatch p q : Program ε σ α).run s =
      match p.run s with
      | (r, s') => (match r with
        | .ok a => (Pure.pure (Except.ok a) : StateM σ (Except ε α))
        | .error e => (q e).run) s' := rfl
  rw [h]
  rcases p.run s with ⟨r, s'⟩
  cases r <;> rfl

end Program

/-! ## Invariants -/

/-- The program keeps the invariant, however it ends. -/
def Keeps (I : σ → Prop) (p : Program ε σ α) : Prop := ∀ s, I s → I (p.run s).2

namespace Keeps

variable {I : σ → Prop} {p : Program ε σ α} {q : α → Program ε σ β}

lemma pure (a : α) : Keeps I (Pure.pure a : Program ε σ α) := fun _ h => h

lemma throw (e : ε) : Keeps I (MonadExcept.throw e : Program ε σ α) := fun _ h => h

lemma bind (hp : Keeps I p) (hq : ∀ a, Keeps I (q a)) : Keeps I (p >>= q) := by
  intro s h
  have hs := hp s h
  rw [Program.run_bind]
  split
  · rename_i a s' hr
    rw [hr] at hs
    exact hq a s' hs
  · rename_i e s' hr
    rwa [hr] at hs

lemma get : Keeps I (MonadState.get : Program ε σ σ) := fun _ h => h

lemma modify {f : σ → σ} (hf : ∀ s, I s → I (f s)) : Keeps I (modify f : Program ε σ PUnit) :=
  hf

lemma ite {c : Prop} [Decidable c] {p p' : Program ε σ α} (hp : Keeps I p) (hp' : Keeps I p') :
    Keeps I (if c then p else p') := by
  split
  · exact hp
  · exact hp'

end Keeps

/-! ## Results -/

/-- Every result of the program is of that kind. -/
def Gives (P : α → Prop) (p : Program ε σ α) : Prop := ∀ s s' a, p.run s = (.ok a, s') → P a

namespace Gives

variable {P : β → Prop} {p p' : Program ε σ β} {q : α → Program ε σ β}

lemma pure {b : β} (h : P b) : Gives P (Pure.pure b : Program ε σ β) := by
  intro s s' a hrun
  cases hrun
  exact h

lemma bind (r : Program ε σ α) (hq : ∀ a, Gives P (q a)) : Gives P (r >>= q) := by
  intro s s' b hrun
  rw [Program.run_bind] at hrun
  split at hrun
  · exact hq _ _ _ _ hrun
  · cases hrun

/-- The result may depend on what an earlier program is known to give. -/
lemma after {r : Program ε σ α} {Q : α → Prop} (hr : Gives Q r)
    (hq : ∀ a, Q a → Gives P (q a)) : Gives P (r >>= q) := by
  intro s s' b hrun
  rw [Program.run_bind] at hrun
  split at hrun
  · rename_i a s₁ ha
    exact hq a (hr _ _ _ ha) _ _ _ hrun
  · cases hrun

lemma ite {c : Prop} [Decidable c] (hp : Gives P p) (hp' : Gives P p') :
    Gives P (if c then p else p') := by
  split
  · exact hp
  · exact hp'

end Gives

/-! ## Failures -/

/-- From states where the invariant holds, the program fails. -/
def Fails (I : σ → Prop) (p : Program ε σ α) : Prop := ∀ s, I s → ∃ e, (p.run s).1 = .error e

namespace Fails

variable {I : σ → Prop} {p : Program ε σ α} {q : α → Program ε σ β}

lemma bind (hp : Fails I p) : Fails I (p >>= q) := by
  intro s h
  obtain ⟨e, he⟩ := hp s h
  exact ⟨e, by rw [Program.run_bind_error (Prod.ext he rfl)]⟩

lemma after (hp : Keeps I p) (hq : ∀ a, Fails I (q a)) : Fails I (p >>= q) := by
  intro s h
  have hs := hp s h
  rw [Program.run_bind]
  rcases hr : p.run s with ⟨e | a, s'⟩
  · exact ⟨e, rfl⟩
  · rw [hr] at hs
    exact hq a s' hs

end Fails

/-! ## Ends -/

/-- From that state the program ends within the invariant, and what it gives is of that kind at its
end. -/
def Ends (I : σ → Prop) (P : α → σ → Prop) (p : Program ε σ α) (s : σ) : Prop :=
  I (p.run s).2 ∧ ∀ a s', p.run s = (.ok a, s') → P a s'

namespace Ends

variable {I : σ → Prop} {P : α → σ → Prop} {Q : β → σ → Prop} {s s' : σ}

lemma of_run {p : Program ε σ α} {r : Except ε α} (hrun : p.run s = (r, s')) (hs : I s')
    (h : ∀ a, r = .ok a → P a s') : Ends I P p s := by
  refine ⟨by rw [hrun]; exact hs, fun a s₁ ha => ?_⟩
  obtain ⟨rfl, rfl⟩ := Prod.mk.inj (hrun.symm.trans ha)
  exact h a rfl

lemma pure {a : α} (hs : I s) (h : P a s) : Ends I P (Pure.pure a : Program ε σ α) s :=
  .of_run rfl hs fun _ ha => Except.ok.inj ha ▸ h

lemma of_keeps {p : Program ε σ α} (hp : Keeps I p) (hs : I s) : Ends I (fun _ _ => True) p s :=
  ⟨hp s hs, fun _ _ _ => trivial⟩

/-- What holds of the end, however the program ends. -/
lemma of_end {p : Program ε σ α} {J : σ → Prop} (h : J (p.run s).2) (hI : ∀ s', J s' → I s') :
    Ends I (fun _ => J) p s :=
  ⟨hI _ h, fun _ _ hrun => by rwa [hrun] at h⟩

/-- What comes later may depend on what an earlier program gave. -/
lemma bind {p : Program ε σ α} {q : α → Program ε σ β} (hp : Ends I P p s)
    (hq : ∀ a s', I s' → P a s' → Ends I Q (q a) s') : Ends I Q (p >>= q) s := by
  obtain ⟨hs, hP⟩ := hp
  rcases hrun : p.run s with ⟨e | a, s₁⟩ <;> rw [hrun] at hs
  · exact .of_run (Program.run_bind_error hrun) hs nofun
  · unfold Ends
    rw [Program.run_bind_ok hrun]
    exact hq a s₁ hs (hP a s₁ hrun)

/-- A step whose run is known. -/
lemma step {p : Program ε σ α} {q : α → Program ε σ β} {a : α} (hrun : p.run s = (.ok a, s'))
    (hq : Ends I Q (q a) s') : Ends I Q (p >>= q) s := by
  unfold Ends
  rwa [Program.run_bind_ok hrun]

lemma get_bind {q : σ → Program ε σ β} (hq : Ends I Q (q s) s) :
    Ends I Q (MonadState.get >>= q) s :=
  .step (Program.run_get s) hq

lemma ite {c : Prop} [Decidable c] {p p' : Program ε σ α} (hp : c → Ends I P p s)
    (hp' : ¬c → Ends I P p' s) : Ends I P (if c then p else p') s := by
  split
  · exact hp ‹_›
  · exact hp' ‹_›

end Ends

/-! ## Operations of a host -/

/-- The run of a sequence of operations. -/
lemma HostM.run_bind (op : HostM σ α) (q : α → HostM σ β) (s : σ) :
    (op >>= q).run s =
      match op.run s with
      | (some a, s') => (q a).run s'
      | (none, s') => (none, s') := by
  have hbind (k : Option α → StateM σ (Option β)) :
      (op.run >>= k) s = k (op.run s).1 (op.run s).2 := rfl
  rw [OptionT.run_bind, Option.elimM, hbind]
  rcases op.run s with ⟨_ | a, s'⟩ <;> rfl

lemma HostM.run_bind_some {op : HostM σ α} {q : α → HostM σ β} {s s' : σ} {a : α}
    (h : op.run s = (some a, s')) : (op >>= q).run s = (q a).run s' := by
  rw [HostM.run_bind, h]

lemma HostM.run_bind_none {op : HostM σ α} {q : α → HostM σ β} {s s' : σ}
    (h : op.run s = (none, s')) : (op >>= q).run s = (none, s') := by
  rw [HostM.run_bind, h]

/-- The operation keeps the invariant, whether it has an answer or not. -/
def HostM.Keeps (I : σ → Prop) (op : HostM σ α) : Prop := ∀ s, I s → I (op.run s).2

namespace HostM.Keeps

variable {I : σ → Prop} {op : HostM σ α} {q : α → HostM σ β}

lemma pure (a : α) : HostM.Keeps I (Pure.pure a : HostM σ α) := fun _ h => h

lemma bind (hop : HostM.Keeps I op) (hq : ∀ a, HostM.Keeps I (q a)) :
    HostM.Keeps I (op >>= q) := by
  intro s h
  have hs := hop s h
  rw [HostM.run_bind]
  rcases hrun : op.run s with ⟨a?, s'⟩
  rw [hrun] at hs
  cases a? with
  | none => exact hs
  | some a => exact hq a s' hs

lemma get : HostM.Keeps I (MonadState.get : HostM σ σ) := fun _ h => h

lemma modify {f : σ → σ} (hf : ∀ s, I s → I (f s)) :
    HostM.Keeps I (modify f : HostM σ PUnit) :=
  hf

end HostM.Keeps

/-- From that state the operation ends within the invariant, and its answer is of that kind at its
end. -/
def HostM.Ends (I : σ → Prop) (P : α → σ → Prop) (op : HostM σ α) (s : σ) : Prop :=
  I (op.run s).2 ∧ ∀ a s', op.run s = (some a, s') → P a s'

namespace HostM.Ends

variable {I : σ → Prop} {P : α → σ → Prop} {Q : β → σ → Prop} {op : HostM σ α}
  {q : α → HostM σ β} {s s' : σ}

lemma of_keeps (hop : HostM.Keeps I op) (hs : I s) : HostM.Ends I (fun _ _ => True) op s :=
  ⟨hop s hs, fun _ _ _ => trivial⟩

/-- What holds of the end, whether the operation has an answer or not. -/
lemma of_end {J : σ → Prop} (h : J (op.run s).2) (hI : ∀ s', J s' → I s') :
    HostM.Ends I (fun _ => J) op s :=
  ⟨hI _ h, fun _ _ hrun => by rwa [hrun] at h⟩

lemma bind (hop : HostM.Ends I P op s)
    (hq : ∀ a s', I s' → P a s' → HostM.Ends I Q (q a) s') : HostM.Ends I Q (op >>= q) s := by
  obtain ⟨hs, hP⟩ := hop
  unfold HostM.Ends
  rcases hrun : op.run s with ⟨_ | a, s₁⟩ <;> rw [hrun] at hs
  · rw [HostM.run_bind_none hrun]
    exact ⟨hs, nofun⟩
  · rw [HostM.run_bind_some hrun]
    exact hq a s₁ hs (hP a s₁ hrun)

/-- A step whose run is known. -/
lemma step {a : α} (hrun : op.run s = (some a, s')) (hq : HostM.Ends I Q (q a) s') :
    HostM.Ends I Q (op >>= q) s := by
  unfold HostM.Ends
  rwa [HostM.run_bind_some hrun]

lemma get_bind {q : σ → HostM σ β} (hq : HostM.Ends I Q (q s) s) :
    HostM.Ends I Q (MonadState.get >>= q) s :=
  .step rfl hq

end HostM.Ends

end Evm
