import Mathlib.Tactic
import Evm.Frame.Memory
import Evm.Request

/-!
# The bytes of a memory

A memory is looked at byte by byte, a byte past its end being zero. Growing it then changes no byte
at all, and writing to it changes those of a window only.
-/

namespace Evm

/-! ## Windows -/

/-- The positions of a window. -/
instance : Membership Nat Window := ⟨fun w j => w.start ≤ j ∧ j < w.start + w.size⟩

instance (w : Window) (j : Nat) : Decidable (j ∈ w) := inferInstanceAs (Decidable (_ ∧ _))

namespace Memory

/-- The byte at a position, zero past the end. -/
def byte (m : Memory) (j : Nat) : UInt8 := m.bytes.getD j 0

variable {m m' m'' : Memory} {w : Window} {start j : Nat}

/-! ## Growth -/

@[simp] lemma size_grow (m : Memory) (len : Nat) : (m.grow len).size = max m.size len := by
  simp only [grow, size, Array.size_append, Array.size_replicate]
  omega

/-- What a memory grows by is zero, and the rest stays. -/
@[simp] lemma byte_grow (m : Memory) (len j : Nat) : (m.grow len).byte j = m.byte j := by
  unfold byte grow
  simp only [Array.getD_eq_getD_getElem?, Array.getElem?_append, Array.getElem?_replicate]
  split
  · rfl
  · rename_i hge
    rw [Array.getElem?_eq_none (Nat.le_of_not_lt hge)]
    split <;> rfl

/-! ## Writes -/

lemma size_writeList (b : Bytes) (start : Nat) (src : List UInt8) :
    (writeList b start src).size = b.size := by
  induction src generalizing b start with
  | nil => rfl
  | cons x rest ih => rw [writeList, ih, Array.size_setIfInBounds]

lemma getD_setIfInBounds (b : Bytes) (i j : Nat) (x : UInt8) :
    (b.setIfInBounds i x).getD j 0 = if i = j ∧ j < b.size then x else b.getD j 0 := by
  simp only [Array.getD_eq_getD_getElem?, Array.getElem?_setIfInBounds]
  by_cases hij : i = j
  · subst hij
    by_cases hlt : i < b.size
    · simp [hlt]
    · simp [hlt]
  · simp [hij]

lemma getD_writeList (b : Bytes) (start j : Nat) (src : List UInt8) :
    (writeList b start src).getD j 0 =
      if start ≤ j ∧ j < start + src.length ∧ j < b.size then src.getD (j - start) 0
      else b.getD j 0 := by
  induction src generalizing b start with
  | nil =>
    rw [writeList, if_neg]
    rw [List.length_nil]
    omega
  | cons x rest ih =>
    rw [writeList, ih, Array.size_setIfInBounds, getD_setIfInBounds, List.length_cons]
    by_cases hfirst : start = j
    · subst hfirst
      rw [if_neg (by omega), Nat.sub_self, List.getD_cons_zero]
      by_cases hlt : start < b.size
      · rw [if_pos ⟨rfl, hlt⟩, if_pos ⟨le_rfl, by omega, hlt⟩]
      · rw [if_neg fun h => hlt h.2, if_neg fun h => hlt h.2.2]
    · have hcond : (start + 1 ≤ j ∧ j < start + 1 + rest.length ∧ j < b.size) ↔
          (start ≤ j ∧ j < start + (rest.length + 1) ∧ j < b.size) := by omega
      have hinner : (if start = j ∧ j < b.size then x else b.getD j 0) = b.getD j 0 :=
        if_neg fun h => hfirst h.1
      rw [hinner]
      refine if_ctx_congr hcond (fun h => ?_) fun _ => rfl
      have hsucc : j - start = (j - (start + 1)) + 1 := by omega
      rw [hsucc, List.getD_cons_succ]

@[simp] lemma size_write (m : Memory) (start : Nat) (src : Bytes) :
    (m.write start src).size = m.size :=
  size_writeList _ _ _

/-- A write replaces the bytes of its window, as far as the memory goes. -/
lemma byte_write (m : Memory) (start : Nat) (src : Bytes) (j : Nat) :
    (m.write start src).byte j =
      if j ∈ (⟨start, src.size⟩ : Window) ∧ j < m.size then src.getD (j - start) 0
      else m.byte j := by
  unfold byte write
  rw [getD_writeList, Array.length_toList]
  have hcond : (start ≤ j ∧ j < start + src.size ∧ j < m.bytes.size) ↔
      (j ∈ (⟨start, src.size⟩ : Window) ∧ j < m.size) := and_assoc.symm
  refine if_ctx_congr hcond (fun _ => ?_) fun _ => rfl
  simp only [List.getD_eq_getElem?_getD, Array.getD_eq_getD_getElem?, Array.getElem?_toList]

@[simp] lemma size_writeByte (m : Memory) (start : Nat) (x : UInt8) :
    (m.writeByte start x).size = m.size :=
  Array.size_setIfInBounds

/-! ## What is spared -/

/-- The later memory is no shorter, and outside the window no byte has been written: those that were
there are as before, and new ones are zero. -/
structure Spares (w : Window) (m m' : Memory) : Prop where
  size_le : m.size ≤ m'.size
  byte : ∀ j ∉ w, m'.byte j = m.byte j

namespace Spares

lemma refl (w : Window) (m : Memory) : Spares w m m := ⟨le_rfl, fun _ _ => rfl⟩

lemma trans (h : Spares w m m') (h' : Spares w m' m'') : Spares w m m'' :=
  ⟨h.size_le.trans h'.size_le, fun j hj => (h'.byte j hj).trans (h.byte j hj)⟩

lemma grow (w : Window) (m : Memory) (len : Nat) : Spares w m (m.grow len) :=
  ⟨(le_max_left _ _).trans_eq (m.size_grow len).symm, fun j _ => m.byte_grow len j⟩

/-- A write that stays within the window. -/
lemma write {src : Bytes} (h : ∀ j, start ≤ j → j < start + src.size → j ∈ w) :
    Spares w m (m.write start src) := by
  refine ⟨(m.size_write start src).ge, fun j hj => ?_⟩
  rw [byte_write, if_neg fun hmem => hj (h j hmem.1.1 hmem.1.2)]

lemma writeByte (x : UInt8) (h : start ∈ w) : Spares w m (m.writeByte start x) := by
  refine ⟨(m.size_writeByte start x).ge, fun j hj => ?_⟩
  unfold Memory.byte Memory.writeByte
  rw [getD_setIfInBounds, if_neg]
  rintro ⟨rfl, -⟩
  exact hj h

end Spares

end Memory

end Evm
