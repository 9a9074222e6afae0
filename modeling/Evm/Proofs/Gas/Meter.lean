import Mathlib.Tactic
import Evm.Gas.Meter

/-!
# What a meter has charged

A request for memory asks for no more than has been reached, or it is granted and charged, or there
is not enough gas for it (`Gas.Meter.expand_cases`). In the last case nothing is charged, but the
size counts as reached all the same, and later requests up to that size are free. So what was spent
is what was paid and the price of the memory that was granted exactly if no request for memory has
been refused (`Gas.Meter.serveAll_accounts_iff`).
-/

namespace Evm.Gas

/-! ## The price of memory -/

/-- More memory costs no less. -/
lemma memory_mono {words words' : Nat} (h : words ≤ words') : memory words ≤ memory words' := by
  have hlinear : Count.satMul memoryWord words ≤ Count.satMul memoryWord words' :=
    inf_le_inf_right _ (Nat.mul_le_mul_left _ h)
  have hsquare : Count.satMul words words ≤ Count.satMul words' words' :=
    inf_le_inf_right _ (Nat.mul_le_mul h h)
  exact inf_le_inf_right _ (Nat.add_le_add hlinear (Nat.div_le_div_right hsquare))

@[simp] lemma memory_zero : memory 0 = 0 := by decide

/-- Below 2 ^ 32 words nothing in the price stops at the largest count. -/
lemma memory_eq {words : Nat} (h : words < 2 ^ 32) :
    memory words = 3 * words + words * words / 512 := by
  have hsquare : words * words ≤ Count.max :=
    (Nat.mul_le_mul (Nat.le_pred_of_lt h) (Nat.le_pred_of_lt h)).trans (by decide)
  have hlinear : memoryWord * words ≤ Count.max := by
    unfold memoryWord Count.max
    omega
  have hsum : memoryWord * words + words * words / 512 ≤ Count.max := by
    unfold memoryWord Count.max at *
    omega
  rw [memory, Count.satMul_eq hlinear, Count.satMul_eq hsquare, Count.satAdd_eq hsum]
  rfl

namespace Meter

variable {m m' m'' : Meter} {limit cost words : Nat}

/-- What becomes of a request for memory. -/
lemma expand_cases (m : Meter) (words : Nat) :
    (words ≤ m.memory.words ∧ m.expand words = (m, .same)) ∨
    (m.memory.words < words ∧ Gas.memory words - m.memory.cost ≤ m.remaining ∧
      m.expand words = ({ m with
        remaining := m.remaining - (Gas.memory words - m.memory.cost)
        memory := ⟨words, Gas.memory words⟩ }, .extended)) ∨
    (m.memory.words < words ∧ m.remaining < Gas.memory words - m.memory.cost ∧
      m.expand words = ({ m with memory := ⟨words, Gas.memory words⟩ }, .outOfGas)) := by
  unfold expand MemorySize.grow
  by_cases hle : words ≤ m.memory.words
  · rw [if_pos hle]
    exact .inl ⟨hle, rfl⟩
  · rw [if_neg hle]
    dsimp only
    by_cases hpaid : Gas.memory words - m.memory.cost ≤ m.remaining
    · rw [pay?, if_pos hpaid]
      exact .inr (.inl ⟨Nat.lt_of_not_le hle, hpaid, rfl⟩)
    · rw [pay?, if_neg hpaid]
      exact .inr (.inr ⟨Nat.lt_of_not_le hle, Nat.lt_of_not_le hpaid, rfl⟩)

/-- Memory up to the size that has been reached is there already. -/
lemma expand_eq_same_iff : (m.expand words).2 = .same ↔ words ≤ m.memory.words := by
  obtain ⟨hle, heq⟩ | ⟨hlt, -, heq⟩ | ⟨hlt, -, heq⟩ := m.expand_cases words <;> rw [heq]
  · exact iff_of_true rfl hle
  · exact iff_of_false nofun (Nat.not_le_of_lt hlt)
  · exact iff_of_false nofun (Nat.not_le_of_lt hlt)

/-! ## Requests -/

/-- What a meter can be asked for. -/
inductive Request where
  | pay (cost : Nat)
  | expand (words : Nat)
  deriving DecidableEq

/-- An answer of a meter. -/
inductive Reply where
  | paid (enough : Bool)
  | memory (expansion : Expansion)
  deriving DecidableEq

/-- Answers a request. -/
def serve : Request → Meter → Reply × Meter
  | .pay cost, m =>
    match m.pay? cost with
    | some m => (.paid true, m)
    | none => (.paid false, m)
  | .expand words, m => (.memory (m.expand words).2, (m.expand words).1)

/-- Requests with the answers to them. -/
abbrev Log := List (Request × Reply)

/-- Answers requests one after the other. -/
def serveAll : List Request → Meter → Log × Meter
  | [], m => ([], m)
  | request :: rest, m =>
    let (reply, m) := serve request m
    let (log, m) := serveAll rest m
    ((request, reply) :: log, m)

namespace Log

/-- What a request has paid apart from memory. -/
def payment : Request × Reply → Nat
  | (.pay cost, .paid true) => cost
  | _ => 0

/-- The words of memory that a request was granted. -/
def grant : Request × Reply → Nat
  | (.expand words, .memory .extended) => words
  | _ => 0

/-- What was paid apart from memory. -/
def paid (log : Log) : Nat := (log.map payment).sum

/-- The largest number of words that was granted. -/
def granted (log : Log) : Nat := (log.map grant).foldr max 0

/-- No request for memory ran out of gas. -/
def Unrefused (log : Log) : Prop := ∀ words, (.expand words, .memory .outOfGas) ∉ log

end Log

/-- What was spent is what was paid and the price of the memory that was granted, which is the
memory that the meter takes to be there. -/
structure Accounts (log : Log) (m : Meter) : Prop where
  spent : m.spent = log.paid + Gas.memory log.granted
  words : m.memory.words = log.granted
  same : ∀ words, (m.expand words).2 = .same ↔ words ≤ log.granted

/-! ## What requests charge -/

/-- The meter knows the price of the memory that it takes to be there. -/
def Priced (m : Meter) : Prop := m.memory.cost = Gas.memory m.memory.words

/-- How the later meter comes from the earlier one by the requests. The price of memory that was
refused is missing from what was spent. -/
structure Charges (m : Meter) (log : Log) (m' : Meter) : Prop where
  priced : m'.Priced
  limit : m'.limit = m.limit
  remaining : m'.remaining ≤ m.remaining
  missing : ∃ missing, m'.remaining + log.paid + Gas.memory m'.memory.words =
    m.remaining + Gas.memory m.memory.words + missing ∧ (missing = 0 ↔ log.Unrefused)
  words : log.Unrefused → m'.memory.words = max m.memory.words log.granted

namespace Charges

lemma nil (h : m.Priced) : m.Charges [] m where
  priced := h
  limit := rfl
  remaining := le_rfl
  missing := ⟨0, rfl, iff_of_true rfl fun _ => List.not_mem_nil⟩
  words _ := (Nat.max_zero _).symm

/-- A request and the ones after it. -/
lemma cons {x : Request × Reply} {log : Log} (hx : m.Charges [x] m') (hlog : m'.Charges log m'') :
    m.Charges (x :: log) m'' := by
  have hunrefused : Log.Unrefused (x :: log) ↔ Log.Unrefused [x] ∧ log.Unrefused := by
    simp only [Log.Unrefused, List.mem_cons, List.not_mem_nil, or_false, not_or, forall_and]
  refine ⟨hlog.priced, hlog.limit.trans hx.limit, hlog.remaining.trans hx.remaining, ?_,
    fun h => ?_⟩
  · obtain ⟨missing, heq, hzero⟩ := hx.missing
    obtain ⟨missing', heq', hzero'⟩ := hlog.missing
    refine ⟨missing + missing', ?_, ?_⟩
    · have hpaid : Log.paid (x :: log) = Log.paid [x] + log.paid := by simp [Log.paid]
      omega
    · rw [Nat.add_eq_zero_iff, hzero, hzero', hunrefused]
  · obtain ⟨hone, hrest⟩ := hunrefused.1 h
    rw [hlog.words hrest, hx.words hone]
    simp only [Log.granted, List.map_cons, List.map_nil, List.foldr_cons, List.foldr_nil]
    omega

end Charges

/-- One request. -/
lemma charges_serve (h : m.Priced) (request : Request) :
    m.Charges [(request, (serve request m).1)] (serve request m).2 := by
  cases request with
  | pay cost =>
    have hunrefused (enough : Bool) : Log.Unrefused [(.pay cost, .paid enough)] := by
      simp [Log.Unrefused]
    by_cases hle : cost ≤ m.remaining
    · simp only [serve, pay?, if_pos hle]
      refine ⟨h, rfl, Nat.sub_le _ _, ⟨0, ?_, iff_of_true rfl (hunrefused true)⟩,
        fun _ => (Nat.max_zero _).symm⟩
      simp only [Log.paid, Log.payment, List.map_cons, List.map_nil, List.sum_cons, List.sum_nil]
      omega
    · simp only [serve, pay?, if_neg hle]
      exact ⟨h, rfl, le_rfl, ⟨0, rfl, iff_of_true rfl (hunrefused false)⟩,
        fun _ => (Nat.max_zero _).symm⟩
  | expand words =>
    have hpriced : m.memory.cost = Gas.memory m.memory.words := h
    obtain ⟨hle, heq⟩ | ⟨hlt, hpaid, heq⟩ | ⟨hlt, hshort, heq⟩ := m.expand_cases words <;>
      simp only [serve, heq]
    · exact ⟨h, rfl, le_rfl, ⟨0, rfl, iff_of_true rfl (by simp [Log.Unrefused])⟩,
        fun _ => (Nat.max_zero _).symm⟩
    · have hmono := memory_mono hlt.le
      refine ⟨rfl, rfl, Nat.sub_le _ _, ⟨0, ?_, iff_of_true rfl (by simp [Log.Unrefused])⟩,
        fun _ => ?_⟩
      · simp only [Log.paid, Log.payment, List.map_cons, List.map_nil, List.sum_cons, List.sum_nil]
        omega
      · simp only [Log.granted, Log.grant, List.map_cons, List.map_nil, List.foldr_cons,
          List.foldr_nil]
        omega
    · -- What was refused is not charged, although the meter takes it to be there.
      have hrefused : ¬Log.Unrefused [(.expand words, .memory .outOfGas)] :=
        fun hall => hall words (List.mem_singleton_self _)
      refine ⟨rfl, rfl, le_rfl, ⟨Gas.memory words - m.memory.cost, ?_, iff_of_false ?_ hrefused⟩,
        fun hall => absurd hall hrefused⟩
      · simp only [Log.paid, Log.payment, List.map_cons, List.map_nil, List.sum_cons, List.sum_nil]
        omega
      · omega

/-- Any number of requests. -/
lemma charges_serveAll (h : m.Priced) (requests : List Request) :
    m.Charges (serveAll requests m).1 (serveAll requests m).2 := by
  induction requests generalizing m with
  | nil => exact .nil h
  | cons request rest ih =>
    have hone := charges_serve h request
    exact hone.cons (ih hone.priced)

lemma priced_full (limit : Nat) : (full limit).Priced := memory_zero.symm

/-- A meter accounts for what it was asked for exactly if it never ran out of gas for memory;
payments may have failed. -/
theorem serveAll_accounts_iff (limit : Nat) (requests : List Request) :
    Accounts (serveAll requests (full limit)).1 (serveAll requests (full limit)).2 ↔
      (serveAll requests (full limit)).1.Unrefused := by
  have hcharges := charges_serveAll (priced_full limit) requests
  generalize serveAll requests (full limit) = x at hcharges ⊢
  obtain ⟨log, m⟩ := x
  obtain ⟨missing, heq, hzero⟩ := hcharges.missing
  have hlimit : m.limit = limit := hcharges.limit
  have hremaining : m.remaining ≤ limit := hcharges.remaining
  have hstart : Gas.memory (full limit).memory.words = 0 := memory_zero
  have hfull : (full limit).remaining = limit := rfl
  dsimp only at *
  constructor
  · intro haccounts
    have hspent := haccounts.spent
    rw [← haccounts.words, spent] at hspent
    exact hzero.1 (by omega)
  · intro hunrefused
    have hnone := hzero.2 hunrefused
    have hwords : m.memory.words = log.granted :=
      (hcharges.words hunrefused).trans (Nat.zero_max _)
    refine ⟨?_, hwords, fun words => hwords ▸ expand_eq_same_iff⟩
    rw [← hwords, spent]
    omega

/-- With 10 gas, 10 words of memory are refused, and then 2 words are taken to be there for nothing.
-/
theorem not_accounts_refused :
    let x := serveAll [.expand 10, .expand 2] (full 10)
    x.1 = [(.expand 10, .memory .outOfGas), (.expand 2, .memory .same)] ∧
      x.2.spent = 0 ∧ x.2.memory.words = 10 ∧ x.1.granted = 0 ∧ ¬Accounts x.1 x.2 := by
  refine ⟨by decide, by decide, by decide, by decide, fun h => ?_⟩
  exact absurd h.words (by decide)

end Meter

end Evm.Gas
