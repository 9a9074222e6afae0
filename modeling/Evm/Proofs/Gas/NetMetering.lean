import Mathlib.Tactic
import Evm.Gas.Price

/-!
# Net metering

Under net metering the writes to a slot in one transaction are paid for by what they come to. What
the slot holds stands for an amount, its `standing`, which is zero for the initial value. A write
pays for a read and for the difference in standing that it makes (`Gas.netPrice_eq`), so that of any
number of writes only the last value matters (`Gas.sum_slotStore_sub_sum_slotRefund`).
-/

namespace Evm.Gas

/-- The writes of some values to a slot, one after the other. -/
def writes (initial present : Word) : List Word → List SlotWrite
  | [] => []
  | value :: rest => ⟨initial, present, value⟩ :: writes initial value rest

/-- What it has cost, apart from reads, that a slot with an initial value holds a value. -/
def standing (features : Features) (initial value : Word) : Int :=
  let read := slotLoad features false
  if value = initial then 0
  else if initial = 0 then slotSet - read
  else if value = 0 then netReset features - read - netClearRefund features
  else netReset features - read

/-- What a write to a warm slot costs in the end. -/
def netPrice (features : Features) (w : SlotWrite) : Int :=
  slotStore features w false - slotRefund features w

variable {features : Features}

@[simp] lemma slotLoad_warm : slotLoad features false = slotRead features := by
  simp [slotLoad]

@[simp] lemma slotStore_warm (w : SlotWrite) :
    slotStore features w false = warmSlotStore features w := by
  simp [slotStore]

@[simp] lemma standing_self (initial : Word) : standing features initial initial = 0 := if_pos rfl

/-! ## One write -/

section

variable (h : netMetering features = true) {initial present new : Word}

include h

/-- A write of the value that the slot holds. -/
lemma netPrice_same : netPrice features ⟨initial, present, present⟩ = slotRead features := by
  simp [netPrice, warmSlotStore, slotRefund, h]

/-- The first write of another value. -/
lemma netPrice_first (hnew : new ≠ initial) :
    netPrice features ⟨initial, initial, new⟩ =
      slotRead features + standing features initial new := by
  unfold netPrice standing
  rw [slotStore_warm]
  simp only [warmSlotStore, slotRefund, h, if_true, slotLoad_warm, if_neg hnew, if_neg hnew.symm,
    true_and]
  by_cases hinitial : initial = 0
  · have hzero : new ≠ 0 := hinitial ▸ hnew
    simp only [if_pos hinitial, if_neg hzero]
    ring
  · by_cases hzero : new = 0
    · simp only [if_neg hinitial, if_pos hzero]
      ring
    · simp only [if_neg hinitial, if_neg hzero]
      ring

/-- A write of another value to a slot that has been written before. -/
lemma netPrice_again (hpresent : initial ≠ present) (hnew : new ≠ present) :
    netPrice features ⟨initial, present, new⟩ =
      slotRead features + (standing features initial new - standing features initial present) := by
  unfold netPrice standing
  rw [slotStore_warm]
  simp only [warmSlotStore, slotRefund, h, if_true, slotLoad_warm, if_neg hnew, hpresent,
    if_neg hpresent.symm, false_and, if_false, eq_comm (a := initial) (b := new)]
  by_cases hinitial : initial = 0
  · -- There was nothing to clear, so that all that counts is whether the slot is empty again.
    simp only [if_pos hinitial]
    split <;> ring
  · simp only [if_neg hinitial]
    by_cases hcleared : present = 0
    · -- What the clearing has earned is taken back.
      have hzero : new ≠ 0 := hcleared ▸ hnew
      simp only [if_pos hcleared, if_neg hzero]
      split <;> ring
    · by_cases hzero : new = 0
      · have hrestores : new ≠ initial := fun heq => hinitial (heq ▸ hzero)
        simp only [if_neg hcleared, if_pos hzero, if_neg hrestores]
        ring
      · simp only [if_neg hcleared, if_neg hzero]
        split <;> ring

/-- A write pays for a read and for the difference in standing that it makes. -/
lemma netPrice_eq (w : SlotWrite) :
    netPrice features w = slotRead features +
      (standing features w.initial w.new - standing features w.initial w.present) := by
  obtain ⟨initial, present, new⟩ := w
  dsimp only
  by_cases hnew : new = present
  · rw [hnew, netPrice_same h]
    ring
  · by_cases hpresent : initial = present
    · subst hpresent
      rw [netPrice_first h hnew, standing_self, sub_zero]
    · exact netPrice_again h hpresent hnew

/-! ## Many writes -/

/-- What some writes cost in the end. The standings in between cancel out. -/
lemma sum_netPrice (initial present : Word) {values : List Word} (hvalues : values ≠ []) :
    ((writes initial present values).map (netPrice features)).sum =
      values.length * slotRead features +
        (standing features initial (values.getLast hvalues) -
          standing features initial present) := by
  induction values generalizing present with
  | nil => exact absurd rfl hvalues
  | cons value rest ih =>
    rw [writes, List.map_cons, List.sum_cons, netPrice_eq h, List.length_cons, Nat.cast_succ]
    dsimp only
    by_cases hrest : rest = []
    · subst hrest
      simp [writes]
    · rw [ih value hrest, List.getLast_cons hrest]
      ring

end

lemma sum_map_netPrice (ws : List SlotWrite) :
    (ws.map (netPrice features)).sum =
      (ws.map fun w => (slotStore features w false : Int)).sum -
        (ws.map (slotRefund features)).sum := by
  have h := Multiset.sum_map_sub (m := (ws : Multiset SlotWrite))
    (f := fun w => (slotStore features w false : Int)) (g := slotRefund features)
  simp only [Multiset.map_coe, Multiset.sum_coe] at h
  exact h

/-- What values have been written in between does not matter: some writes to a warm slot cost, less
their refunds, as many reads, and what it costs that the slot holds the last of them. -/
theorem sum_slotStore_sub_sum_slotRefund
    (h : features.has .eip1283 = true ∨ features.has .eip2200 = true) (initial : Word)
    {values : List Word} (hvalues : values ≠ []) :
    ((writes initial initial values).map fun w => (slotStore features w false : Int)).sum -
        ((writes initial initial values).map (slotRefund features)).sum =
      values.length * slotLoad features false +
        standing features initial (values.getLast hvalues) := by
  have hnet : netMetering features = true := by
    rw [netMetering, Bool.or_eq_true]
    exact h.symm
  rw [← sum_map_netPrice, sum_netPrice hnet, standing_self, sub_zero, slotLoad_warm]

/-- A slot that holds 5 is cleared, set, restored and cleared again. -/
theorem sum_slotStore_sub_sum_slotRefund_recleared :
    (Features.ofFork .london).has .eip2200 = true ∧
      ((writes 5 5 [0, 7, 5, 0]).map fun w =>
          (slotStore (.ofFork .london) w false : Int)).sum -
        ((writes 5 5 [0, 7, 5, 0]).map (slotRefund (.ofFork .london))).sum = 4 * 100 - 2000 := by
  have h : (Features.ofFork .london).has .eip2200 = true := by decide
  refine ⟨h, ?_⟩
  rw [sum_slotStore_sub_sum_slotRefund (.inr h) 5 (by decide)]
  decide

end Evm.Gas
