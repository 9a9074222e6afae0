import Evm.Code
import Evm.Proofs.Bytes

/-!
# Where instructions start

`Bytes.Starts` says where instructions start when code is read from the left and the bytes that
pushes carry are skipped. The starts do not overlap (`Starts.le_of_lt`), and the analysis of code
finds exactly them: `analyze` gives every start the kind of its byte and every other position
`immediate` (`place?_analyze`). So a jump destination is a start that holds the byte of one, and
what a push carries is the number that the bytes after it spell. -/

namespace Evm

/-- Reading from the left and skipping what pushes carry, an instruction starts there. -/
inductive Bytes.Starts (code : Bytes) : Nat → Prop
  | first : Starts code 0
  | next {pc : Nat} (h : Starts code pc) (hlt : pc < code.size) :
    Starts code (pc + 1 + immediateSize code[pc])

/-- No push carries more bytes than a word has. -/
lemma immediateSize_le (b : UInt8) : immediateSize b ≤ 32 := by
  have hlt := b.toNat_lt
  unfold immediateSize
  split <;> omega

namespace Bytes.Starts

variable {code : Bytes}

/-- The starts are the least set with the first position and, with every start in the code, the
position behind what it carries. -/
lemma iff_mem (code : Bytes) (pc : Nat) :
    code.Starts pc ↔ ∀ S : Set Nat, 0 ∈ S →
      (∀ i (h : i < code.size), i ∈ S → i + 1 + immediateSize code[i] ∈ S) → pc ∈ S := by
  constructor
  · intro h S hfirst hnext
    induction h with
    | first => exact hfirst
    | next _ hlt ih => exact hnext _ hlt ih
  · intro h
    exact h {i | code.Starts i} .first fun i hlt hi => .next hi hlt

/-- No instruction starts within another one. -/
lemma le_of_lt {pc i : Nat} (hpc : Starts code pc) (hi : Starts code i) (hlt : pc < i)
    (hsize : pc < code.size) : pc + 1 + immediateSize code[pc] ≤ i := by
  induction i using Nat.strong_induction_on generalizing pc with
  | _ i ih =>
    cases hi with
    | first => exact absurd hlt (Nat.not_lt_zero _)
    | @next j hj hjsize =>
      rcases Nat.lt_trichotomy pc j with hlt' | rfl | hgt
      · have hle := ih j (by omega) hpc hj hlt' hsize
        omega
      · exact le_rfl
      · have hle := ih pc hlt hj hpc hgt hjsize
        omega

end Bytes.Starts

namespace JumpTable

variable {code : Bytes}

lemma classify_eq_jumpDest {code : Bytes} {pc : Nat} {b : UInt8} :
    classify code pc b = .jumpDest ↔ b = 0x5b := by
  unfold classify
  split_ifs <;> simp_all

lemma classify_eq_beginSub {code : Bytes} {pc : Nat} {b : UInt8} :
    classify code pc b = .beginSub ↔ b = 0x5c := by
  unfold classify
  split_ifs <;> simp_all

/-- The word of a push is that of the window that it carries. -/
lemma carriedWord_eq (code : Bytes) (start len : Nat) :
    carriedWord code start len = Bytes.toWord (code.window start len) := by
  have hdata : code.extract start (Nat.min (start + len) code.size) =
      code.extract start (start + len) := by
    have hmin : Nat.min (start + len) code.size = min (start + len) code.size := rfl
    refine Array.ext ?_ fun i _ _ => ?_
    · simp only [Array.size_extract, hmin]
      omega
    · rw [Array.getElem_extract, Array.getElem_extract]
  unfold carriedWord Bytes.toWord
  dsimp only
  rw [hdata, Array.append_assoc, Bytes.toNat_zeros_append, ← Bytes.window_eq_append]

lemma classify_of_carries (code : Bytes) (pc : Nat) {b : UInt8} (h : 0 < immediateSize b) :
    classify code pc b = .push (Bytes.toWord (code.window (pc + 1) (immediateSize b))) := by
  rw [← carriedWord_eq]
  unfold classify
  split_ifs with hjumpDest hbeginSub
  · exact absurd h (hjumpDest ▸ by decide)
  · exact absurd h (hbeginSub ▸ by decide)
  · rfl

lemma classify_eq_push {code : Bytes} {pc : Nat} {b : UInt8} {w : Word} :
    classify code pc b = .push w ↔
      0 < immediateSize b ∧ w = Bytes.toWord (code.window (pc + 1) (immediateSize b)) := by
  constructor
  · intro h
    have hcarries : 0 < immediateSize b := by
      unfold classify at h
      split_ifs at h with hjumpDest hbeginSub hcarries
      exact hcarries
    rw [classify_of_carries code pc hcarries] at h
    exact ⟨hcarries, (Place.push.inj h).symm⟩
  · rintro ⟨hcarries, rfl⟩
    exact classify_of_carries code pc hcarries

/-- The places found so far are right: those of the starts and, between them, what pushes carry. -/
structure Sorts (code : Bytes) (places : Array Place) : Prop where
  start : ∀ {i : Nat} (h : i < places.size) (hcode : i < code.size), code.Starts i →
    places[i] = classify code i code[i]
  immediate : ∀ {i : Nat} (h : i < places.size), ¬code.Starts i → places[i] = .immediate

/-- One instruction is sorted, together with as many bytes as it carries at most. -/
lemma Sorts.push {places : Array Place} {carried : Nat} (h : Sorts code places)
    (hsize : places.size < code.size) (hstart : code.Starts places.size)
    (hcarried : carried ≤ immediateSize code[places.size]) :
    Sorts code (places.push (classify code places.size code[places.size]) ++
      Array.replicate carried .immediate) where
  start := by
    intro i hi hcode hs
    rcases Nat.lt_trichotomy i places.size with hlt | rfl | hgt
    · rw [Array.getElem_append_left (by simp; omega), Array.getElem_push_lt hlt]
      exact h.start hlt hcode hs
    · rw [Array.getElem_append_left (by simp), Array.getElem_push_eq]
    · have hle := hstart.le_of_lt hs hgt hsize
      simp only [Array.size_append, Array.size_push, Array.size_replicate] at hi
      omega
  immediate := by
    intro i hi hs
    rcases Nat.lt_trichotomy i places.size with hlt | rfl | hgt
    · rw [Array.getElem_append_left (by simp; omega), Array.getElem_push_lt hlt]
      exact h.immediate hlt hs
    · exact absurd hstart hs
    · rw [Array.getElem_append_right (by simp; omega), Array.getElem_replicate]

namespace Scan

/-- What has been found is right, and the next instruction starts where the scan stands. -/
structure Exact (code : Bytes) (s : Scan) : Prop where
  sorts : Sorts code s.places
  size : s.places.size = min s.pc code.size
  starts : code.Starts s.pc

variable {s : Scan}

lemma exact_start (code : Bytes) : start.Exact code where
  sorts := ⟨fun h => absurd h (Nat.not_lt_zero _), fun h => absurd h (Nat.not_lt_zero _)⟩
  size := (Nat.zero_min _).symm
  starts := .first

lemma getD_of_lt {pc : Nat} (h : pc < code.size) : code.getD pc 0 = code[pc] := by
  rw [Array.getD_eq_getD_getElem?, Array.getElem?_eq_getElem h, Option.getD_some]

lemma Exact.advance (h : s.Exact code) (hlt : s.pc < code.size) : (s.advance code).Exact code := by
  obtain ⟨hsorts, hsize, hstarts⟩ := h
  obtain ⟨pc, places⟩ := s
  obtain rfl : places.size = pc := hsize.trans (Nat.min_eq_left hlt.le)
  have hmin (m n : Nat) : Nat.min m n = min m n := rfl
  refine ⟨?_, ?_, ?_⟩
  · show Sorts code (places.push _ ++ _)
    rw [getD_of_lt hlt]
    exact hsorts.push hlt hstarts (Nat.min_le_left _ _)
  · dsimp only at hlt
    simp only [Scan.advance, Array.size_append, Array.size_push, Array.size_replicate, hmin]
    omega
  · show code.Starts (places.size + 1 + _)
    rw [getD_of_lt hlt]
    exact hstarts.next hlt

lemma Exact.finish (h : s.Exact code) :
    (s.finish code).Exact code ∧ code.size ≤ (s.finish code).pc := by
  fun_induction Scan.finish code s with
  | case1 s hlt ih => exact ih (h.advance hlt)
  | case2 s hge => exact ⟨h, Nat.le_of_not_lt hge⟩

/-- The scan ends after so many rounds, all of which are needed. -/
lemma exists_rounds (code : Bytes) (s : Scan) :
    ∃ rounds ≤ code.size - s.pc, s.finish code = (Scan.advance code)^[rounds] s ∧
      (∀ k < rounds, ((Scan.advance code)^[k] s).pc < code.size) ∧
      code.size ≤ ((Scan.advance code)^[rounds] s).pc := by
  fun_induction Scan.finish code s with
  | case1 s hlt ih =>
    obtain ⟨rounds, hrounds, hfinish, hbefore, hafter⟩ := ih
    have hpc : (s.advance code).pc = s.pc + 1 + immediateSize (code.getD s.pc 0) := rfl
    refine ⟨rounds + 1, by omega, hfinish, fun k hk => ?_, hafter⟩
    cases k with
    | zero => exact hlt
    | succ k => exact hbefore k (Nat.lt_of_succ_lt_succ hk)
  | case2 s hge => exact ⟨0, Nat.zero_le _, rfl, nofun, Nat.le_of_not_lt hge⟩

end Scan

lemma sorts_analyze (code : Bytes) :
    Sorts code (analyze code).places ∧ (analyze code).places.size = code.size := by
  obtain ⟨⟨hsorts, hsize, -⟩, hend⟩ := (Scan.exact_start code).finish
  exact ⟨hsorts, hsize.trans (Nat.min_eq_right hend)⟩

open Classical in
/-- The analysis knows what stands at every position. -/
lemma place?_analyze (code : Bytes) (pc : Nat) :
    (analyze code).place? pc =
      if h : pc < code.size then
        if code.Starts pc then some (classify code pc code[pc]) else some .immediate
      else none := by
  obtain ⟨hsorts, hsize⟩ := sorts_analyze code
  unfold place?
  split_ifs with hlt hstart
  · rw [Array.getElem?_eq_getElem (hsize ▸ hlt), hsorts.start (hsize ▸ hlt) hlt hstart]
  · rw [Array.getElem?_eq_getElem (hsize ▸ hlt), hsorts.immediate (hsize ▸ hlt) hstart]
  · exact Array.getElem?_eq_none (hsize ▸ Nat.le_of_not_lt hlt)

/-- A jump may go to the starts that hold the byte of a destination. -/
lemma isJumpDest_analyze (code : Bytes) (pc : Nat) :
    (analyze code).isJumpDest pc = true ↔
      ∃ h : pc < code.size, code.Starts pc ∧ code[pc] = 0x5b := by
  unfold isJumpDest
  rw [place?_analyze]
  split_ifs with hlt hstart
  · simp only [beq_iff_eq, Option.some.injEq, classify_eq_jumpDest, hlt, hstart, exists_true_left,
      true_and]
  · simp [hstart]
  · simp [hlt]

/-- A subroutine begins at the starts that hold the byte of one. -/
lemma isBeginSub_analyze (code : Bytes) (pc : Nat) :
    (analyze code).isBeginSub pc = true ↔
      ∃ h : pc < code.size, code.Starts pc ∧ code[pc] = 0x5c := by
  unfold isBeginSub
  rw [place?_analyze]
  split_ifs with hlt hstart
  · simp only [beq_iff_eq, Option.some.injEq, classify_eq_beginSub, hlt, hstart, exists_true_left,
      true_and]
  · simp [hstart]
  · simp [hlt]

lemma pushValue?_eq_some {t : JumpTable} {pc : Nat} {w : Word} :
    t.pushValue? pc = some w ↔ t.place? pc = some (.push w) := by
  unfold pushValue?
  split <;> simp_all

/-- A start that carries bytes is a push, and its word is what they spell. -/
lemma pushValue?_analyze_eq_some {pc : Nat} {w : Word} :
    (analyze code).pushValue? pc = some w ↔
      ∃ h : pc < code.size, code.Starts pc ∧ 0 < immediateSize code[pc] ∧
        w = Bytes.toWord (code.window (pc + 1) (immediateSize code[pc])) := by
  rw [pushValue?_eq_some, place?_analyze]
  split_ifs with hlt hstart
  · simp only [Option.some.injEq, classify_eq_push, hlt, hstart, exists_true_left, true_and]
  · simp [hstart]
  · simp [hlt]

/-- The word of a push is what the bytes after it spell. -/
lemma pushValue?_analyze {code : Bytes} {pc : Nat} (hstart : code.Starts pc) (hlt : pc < code.size)
    (hcarries : 0 < immediateSize code[pc]) :
    (analyze code).pushValue? pc =
      some (Bytes.toWord (code.window (pc + 1) (immediateSize code[pc]))) :=
  pushValue?_analyze_eq_some.2 ⟨hlt, hstart, hcarries, rfl⟩

lemma countP_eq_card (p : Place → Bool) (places : List Place) :
    places.countP p = ((Finset.range places.length).filter fun i => places[i]?.any p = true).card := by
  induction places using List.reverseRecOn with
  | nil => rfl
  | append_singleton places place ih =>
    have hlast : (places ++ [place])[places.length]? = some place := by
      rw [List.getElem?_append_right (le_refl _), Nat.sub_self]
      rfl
    have hbefore : (Finset.range places.length).filter
        (fun i => (places ++ [place])[i]?.any p = true) =
          (Finset.range places.length).filter fun i => places[i]?.any p = true := by
      refine Finset.filter_congr fun i hi => ?_
      rw [List.getElem?_append_left (Finset.mem_range.1 hi)]
    rw [List.countP_append, List.length_append, List.length_singleton, Finset.range_add_one,
      Finset.filter_insert, hlast, hbefore, ih, List.countP_singleton, Option.any_some]
    split_ifs
    · rw [Finset.card_insert_of_notMem (by simp)]
    · rfl

/-- The destinations are counted one by one. -/
lemma jumpDestCount_eq (t : JumpTable) :
    t.jumpDestCount =
      ((Finset.range t.places.size).filter fun pc => t.isJumpDest pc = true).card := by
  have hany (place : Option Place) : place.any (· == .jumpDest) = (place == some .jumpDest) := by
    cases place <;> rfl
  have hcount := countP_eq_card (· == .jumpDest) t.places.toList
  simp only [Array.countP_toList, Array.length_toList, Array.getElem?_toList, hany] at hcount
  exact hcount

end JumpTable

/-- The analysis of code is exact. The instruction starts are the least set that holds the first
position and, with every start in the code, the position behind the bytes that it carries: as many
as the number of a push says, and none for any other byte. A jump may go to the starts with the byte
of a destination, a subroutine begins at those with the byte of one, and the starts that carry bytes
are those with a word, which is the number that these bytes spell, bytes past the end being zero.
The destinations are counted, and the scan is over after no more rounds than there are bytes. -/
theorem JumpTable.analyze_finds (code : Bytes) :
    let t := analyze code
    let carried (b : UInt8) : Nat := if 0x60 ≤ b.toNat ∧ b.toNat ≤ 0x7f then b.toNat - 0x5f else 0
    (∀ pc, code.Starts pc ↔ ∀ S : Set Nat, 0 ∈ S →
      (∀ i (h : i < code.size), i ∈ S → i + 1 + carried code[i] ∈ S) → pc ∈ S) ∧
    (∀ pc, t.isJumpDest pc = true ↔ ∃ h : pc < code.size, code.Starts pc ∧ code[pc] = 0x5b) ∧
    (∀ pc, t.isBeginSub pc = true ↔ ∃ h : pc < code.size, code.Starts pc ∧ code[pc] = 0x5c) ∧
    (∀ pc w, t.pushValue? pc = some w ↔ ∃ h : pc < code.size, code.Starts pc ∧
      0 < carried code[pc] ∧ w.toNat = ∑ i ∈ Finset.range (carried code[pc]),
        (code.getD (pc + 1 + i) 0).toNat * 256 ^ (carried code[pc] - 1 - i)) ∧
    t.jumpDestCount =
      ((Finset.range code.size).filter fun pc => t.isJumpDest pc = true).card ∧
    ∃ rounds ≤ code.size, ((Scan.advance code)^[rounds] .start).places = t.places ∧
      (∀ k < rounds, ((Scan.advance code)^[k] .start).pc < code.size) ∧
      code.size ≤ ((Scan.advance code)^[rounds] .start).pc := by
  intro t carried
  obtain ⟨rounds, hle, hfinish, hbefore, hafter⟩ := Scan.exists_rounds code .start
  refine ⟨Bytes.Starts.iff_mem code, isJumpDest_analyze code, isBeginSub_analyze code,
    fun pc w => ?_, ?_, rounds, hle, congrArg Scan.places hfinish.symm, hbefore, hafter⟩
  · rw [pushValue?_analyze_eq_some]
    refine exists_congr fun hlt => and_congr_right fun _ => and_congr_right fun _ => ?_
    have hword := Bytes.toNat_toWord_window code (pc + 1) (immediateSize_le code[pc])
    rw [BitVec.toNat_eq, hword]
    rfl
  · have hcount := jumpDestCount_eq t
    rwa [(sorts_analyze code).2] at hcount

end Evm
