import Evm.Proofs.Bytes
import Evm.Proofs.Execution.StackEffect

/-!
# Copies to memory

The instructions that copy bytes to memory read them from a byte string that goes on with zero
bytes. Their operands are words, which are cut down to counts or refused in ways that differ from one
instruction to the next. `Instruction.copying?` says for each of them what is to be copied, in plain
numbers, and `Exec.next_copies` that this is what happens.
-/

namespace Evm

variable {σ : Type}

/-! ## What is to be copied -/

/-- A copy of bytes to memory. -/
structure Copying where
  /-- What is read. -/
  source : Bytes
  /-- The source does not go on past its end. -/
  isBounded : Bool := false
  src : Nat
  dst : Nat
  len : Nat
  /-- Where the memory ends that is used. -/
  reach : Nat := dst + len
  /-- What is paid apart from the instruction and for memory. -/
  price : Nat := Gas.copyWord * Count.words len

/-- The byte string as the frame has it. -/
def CopySource.read (f : Frame) : CopySource → Bytes
  | callData => f.input
  | code => f.code.bytes
  | returnData => f.returnData

/-- Whether the byte string must not be read past its end. -/
def CopySource.isBounded : CopySource → Bool
  | returnData => true
  | _ => false

/-- The copy that the operands of the instruction ask for, if it is one of those that copy and the
host has an answer. -/
def Instruction.copying? (host : Host σ) (f : Frame) (s : σ) : Instruction → Option Copying
  | .copy source => some {
      source := source.read f, isBounded := source.isBounded, src := (f.word 1).toNat,
      dst := (f.word 0).toNat, len := (f.word 2).toNat }
  | .mcopy => some {
      source := f.memory.bytes, src := (f.word 1).toNat, dst := (f.word 0).toNat,
      len := (f.word 2).toNat,
      reach := max (f.word 0).toNat (f.word 1).toNat + (f.word 2).toNat }
  | .extCodeCopy =>
    ((host.code (f.word 0).toAddress).run s).1.map fun code => {
      source := code.value.bytes, src := (f.word 2).toNat, dst := (f.word 1).toNat,
      len := (f.word 3).toNat,
      price := Gas.copyWord * Count.words (f.word 3).toNat +
        Gas.coldAccountSurcharge f.features code.isCold }
  | _ => none

/-- The copy has been made on the way from the first frame to the second: within memory the bytes of
the source are in place, and no others have changed. -/
structure Copying.Done (c : Copying) (f f' : Frame) : Prop where
  copied : c.reach ≤ f'.memory.size →
    ∀ k < c.len, f'.memory.byte (c.dst + k) = c.source.getD (c.src + k) 0
  spared : Memory.Spares ⟨c.dst, c.len⟩ f.memory f'.memory
  /-- Memory is made large enough, as far as it can be. -/
  fits : f.Sized → c.len ≠ 0 → c.reach ≤ Memory.limit → c.reach ≤ f'.memory.size
  bounded : c.isBounded = true → c.src + c.len ≤ c.source.size

/-- The frames have the same bytes to copy and the same memory. -/
structure Frame.SameBytes (f f' : Frame) : Prop where
  invocation : f'.toInvocation = f.toInvocation
  memory : f'.memory = f.memory
  gas : f'.gas.memory = f.gas.memory
  returnData : f'.returnData = f.returnData

lemma Frame.SameBytes.trans {f f' f'' : Frame} (h : f.SameBytes f') (h' : f'.SameBytes f'') :
    f.SameBytes f'' :=
  ⟨h'.invocation.trans h.invocation, h'.memory.trans h.memory, h'.gas.trans h.gas,
    h'.returnData.trans h.returnData⟩

lemma Frame.SameBytes.sized {f f' : Frame} (h : f.SameBytes f') (hf : f.Sized) : f'.Sized := by
  refine ⟨?_, ?_⟩
  · rw [h.memory, h.gas]
    exact hf.size
  · unfold Gas.Meter.Priced
    rw [h.gas]
    exact hf.priced

lemma Frame.SameBytes.read {f f' : Frame} (h : f.SameBytes f') (source : CopySource) :
    source.read f' = source.read f := by
  cases source with
  | callData => exact congrArg Invocation.input h.invocation
  | code => exact congrArg (·.code.bytes) h.invocation
  | returnData => exact h.returnData

/-- What is to be copied does not depend on anything else. -/
lemma Frame.SameBytes.copying? {f f' : Frame} (h : f.SameBytes f') (hstack : f'.stack = f.stack)
    (host : Host σ) (s : σ) (i : Instruction) : i.copying? host f' s = i.copying? host f s := by
  have hword : f'.word = f.word := by
    unfold Frame.word
    rw [hstack]
  unfold Instruction.copying?
  rw [hword, h.memory, h.invocation]
  cases i with
  | copy source =>
    dsimp only
    rw [h.read]
  | _ => rfl

/-! ## Bytes at an offset -/

/-- Past the end of a byte string it makes no difference how far past it is. -/
lemma Bytes.getD_toCount {b : Bytes} (hb : b.size < Count.max) (w : Word) (k : Nat) :
    b.getD (w.toCount + k) 0 = b.getD (w.toNat + k) 0 := by
  by_cases hw : w.toNat ≤ Count.max
  · have hcount : w.toCount = w.toNat := Nat.min_eq_left hw
    rw [hcount]
  · have hcount : w.toCount = Count.max := Nat.min_eq_right (Nat.le_of_not_le hw)
    simp only [Array.getD_eq_getD_getElem?]
    rw [Array.getElem?_eq_none (by omega), Array.getElem?_eq_none (by omega)]

/-- A sum of counts is past the end of a byte string just as the sum of the words is. -/
lemma Bytes.size_lt_satAdd_iff {b : Bytes} (hb : b.size < Count.max) (w : Word) (len : Nat) :
    b.size < Count.satAdd w.toCount len ↔ b.size < w.toNat + len := by
  unfold Count.satAdd Word.toCount
  simp only [Nat.min_def]
  split_ifs <;> omega

lemma Bytes.getD_window (b : Bytes) (start : Nat) {len k : Nat} (hk : k < len) :
    (window b start len).getD k 0 = b.getD (start + k) 0 := by
  have hlt : k < (window b start len).size := by rwa [size_window]
  rw [Array.getD, dif_pos hlt]
  exact getElem_window b start len k hlt

namespace Memory

variable {m : Memory} {start len k : Nat}

/-- Within the memory a write puts its bytes in place. -/
lemma byte_write_add {src : Bytes} (hk : k < src.size) (h : start + k < m.size) :
    (m.write start src).byte (start + k) = src.getD k 0 := by
  rw [byte_write, if_pos, Nat.add_sub_cancel_left]
  exact ⟨⟨Nat.le_add_right _ _, Nat.add_lt_add_left hk _⟩, h⟩

lemma size_read (h : start + len ≤ m.size) : (m.read start len).size = len := by
  have hsize : start + len ≤ m.bytes.size := h
  rw [read, Array.size_extract]
  omega

lemma getD_read (hk : k < len) (h : start + len ≤ m.size) :
    (m.read start len).getD k 0 = m.byte (start + k) := by
  have hsize : start + len ≤ m.bytes.size := h
  unfold read byte
  simp only [Array.getD_eq_getD_getElem?, Array.getElem?_extract]
  rw [if_pos (by omega)]

end Memory

/-- There is always a price for copying. -/
lemma Gas.copy_eq (len : Nat) : Gas.copy len = some (Gas.copyWord * Count.words len) := by
  have hwords : Count.words len ≤ Count.max / 32 := Nat.div_le_div_right (Count.satAdd_le_max _ _)
  unfold copy perWord Count.mul?
  rw [if_pos]
  unfold copyWord Count.max at *
  omega

namespace Exec

variable {f f' : Frame} {s s' : σ} {host : Host σ} {c : Copying}

/-! ## Operands and prices -/

/-- A frame with enough words on its stack has them taken. -/
lemma pop_run_of_le {n : Nat} (h : n ≤ f.stack.height) (s : σ) :
    ∃ words : Vector Word n, (∀ k (hk : k < n), words[k] = f.word k) ∧
      (pop n).run (f, s) = (.ok words, ({ f with stack := f.stack.drop n }, s)) := by
  have hrun : ∃ words, (pop n).run (f, s) =
      (.ok words, ({ f with stack := f.stack.drop n }, s)) := by
    unfold pop
    rw [frame_bind_run, Stack.pop?, dif_pos h]
    exact ⟨_, rfl⟩
  obtain ⟨words, hrun⟩ := hrun
  exact ⟨words, (pop_eq_ok hrun).2.1, hrun⟩

lemma pop3_run (h : 3 ≤ f.stack.height) (s : σ) :
    (pop3).run (f, s) =
      (.ok (f.word 0, f.word 1, f.word 2), ({ f with stack := f.stack.drop 3 }, s)) := by
  obtain ⟨words, hwords, hrun⟩ := pop_run_of_le h s
  unfold pop3
  rw [Program.run_bind_ok hrun, hwords, hwords, hwords]
  rfl

lemma pop4_run (h : 4 ≤ f.stack.height) (s : σ) :
    (pop4).run (f, s) =
      (.ok (f.word 0, f.word 1, f.word 2, f.word 3),
        ({ f with stack := f.stack.drop 4 }, s)) := by
  obtain ⟨words, hwords, hrun⟩ := pop_run_of_le h s
  unfold pop4
  rw [Program.run_bind_ok hrun, hwords, hwords, hwords, hwords]
  rfl

lemma operand_run (h : 1 ≤ f.stack.height) (s : σ) :
    (operand).run (f, s) = (.ok (f.word 0), ({ f with stack := f.stack.drop 0 }, s)) := by
  obtain ⟨words, hwords, hrun⟩ := operands_run h s
  unfold operand
  rw [Program.run_bind_ok hrun, hwords]
  rfl

lemma count_bind_run (w : Word) (otherwise : Status) (q : Nat → Exec σ Unit) (x : Frame × σ) :
    (count w otherwise >>= q).run x =
      if w.toNat ≤ Count.max then (q w.toNat).run x else (.error otherwise, x) := by
  unfold count Word.toCount?
  split_ifs <;> rfl

lemma chargePrice_bind_run (cost : Nat) (q : Unit → Exec σ Unit) (f : Frame) (s : σ) :
    (chargePrice (some cost) >>= q).run (f, s) =
      if cost ≤ f.gas.remaining then
        (q ()).run ({ f with gas := { f.gas with remaining := f.gas.remaining - cost } }, s)
      else (.error .outOfGas, (f, s)) := by
  have hcharge : (chargePrice (some cost)).run (f, s) = _ := charge_run cost f s
  split_ifs at hcharge ⊢
  · exact Program.run_bind_ok hcharge
  · exact Program.run_bind_error hcharge

lemma ask_bind_run {α : Type} {op : HostM σ α} {q : α → Exec σ Unit} {a : α} {t : σ}
    (h : op.run s = (some a, t)) : (ask op >>= q).run (f, s) = (q a).run (f, t) := by
  have hask : (ask op).run (f, s) = (.ok a, (f, t)) := by
    unfold ask
    rw [tell_bind_run, h]
    rfl
  exact Program.run_bind_ok hask

/-- A reservation changes no byte. -/
lemma byte_of_reserve {start len : Nat} {y : Frame × σ}
    (hrun : (reserve start len).run (f, s) = (.ok (), y)) :
    y.1.memory.byte = f.memory.byte := by
  have hspares := (onlyGrows_reserve start len {} (f, s)).1
  rw [hrun] at hspares
  exact funext fun j => hspares.byte j fun hj => by
    obtain ⟨hle, hlt⟩ := hj
    exact absurd hlt (Nat.not_lt.2 hle)

/-! ## What copies once it is paid for -/

/-- From that state the program makes the copy: where it succeeds the bytes are in place, it halts
because of where they are read only past the end of a bounded source, and it does nothing where
there are none. -/
structure Makes (c : Copying) (q : Exec σ Unit) (f : Frame) (s : σ) : Prop where
  copied : ∀ f' s', q.run (f, s) = (.ok (), (f', s')) → c.reach ≤ f'.memory.size →
    ∀ k < c.len, f'.memory.byte (c.dst + k) = c.source.getD (c.src + k) 0
  fits : ∀ f' s', q.run (f, s) = (.ok (), (f', s')) → f.Sized → c.len ≠ 0 →
    c.reach ≤ Memory.limit → c.reach ≤ f'.memory.size
  bounded : (q.run (f, s)).1 = .error .outOfOffset ↔
    c.isBounded = true ∧ c.source.size < c.src + c.len
  empty : c.len = 0 → (c.isBounded = true → c.src ≤ c.source.size) →
    q.run (f, s) = (.ok (), (f, s))

/-- The rest of a copy within memory, once it is paid for. -/
def move (dst src : Word) (len : Nat) : Exec σ Unit := do
  if len ≠ 0 then
    let dst ← count dst
    let src ← count src
    reserve (Nat.max dst src) len
    update fun f => { f with memory := f.memory.copyWithin dst src len }

/-- The rest of a copy from a byte string of the frame, once it is paid for. -/
def deliver (source : CopySource) (dst src : Word) (len : Nat) : Exec σ Unit := do
  let data := source.read (← frame)
  if source.isBounded = true ∧ data.size < Count.satAdd src.toCount len then halt .outOfOffset
  copyToMemory dst src len data

lemma eq_of_reserve_error {start len : Nat} {status : Status} {y : Frame × σ}
    (hrun : (reserve start len).run (f, s) = (.error status, y)) : status = .memoryOutOfGas := by
  rw [reserve_run] at hrun
  split at hrun <;> cases hrun
  rfl

namespace Makes

lemma nothing (hlen : c.len = 0) (hbounded : c.isBounded = false) (f : Frame) (s : σ) :
    Makes c (pure ()) f s := by
  refine ⟨fun _ _ _ _ k hk => ?_, fun _ _ _ _ h => absurd hlen h, ⟨nofun, fun h => ?_⟩,
    fun _ _ => rfl⟩
  · rw [hlen] at hk
    exact absurd hk (Nat.not_lt_zero k)
  · rw [hbounded] at h
    cases h.1

/-- A word that is no count only keeps the copy from being made. -/
lemma count {w : Word} {q : Nat → Exec σ Unit} (hlen : c.len ≠ 0) (hbounded : c.isBounded = false)
    (h : Makes c (q w.toNat) f s) : Makes c (Exec.count w >>= q) f s := by
  have hrun := count_bind_run w .invalidOperand q (f, s)
  split_ifs at hrun
  · obtain ⟨hcopied, hfits, hoffset, hempty⟩ := h
    exact ⟨hrun ▸ hcopied, hrun ▸ hfits, hrun ▸ hoffset, hrun ▸ hempty⟩
  · refine ⟨?_, ?_, ?_, fun h => absurd h hlen⟩
    · rw [hrun]
      nofun
    · rw [hrun]
      nofun
    · rw [hrun, hbounded]
      exact ⟨nofun, nofun⟩

/-- The memory that is reserved holds the whole window. What is written may depend on it, as it does
not change the bytes. -/
lemma reserve {start : Nat} {b : Memory → Bytes} (hlen : c.len ≠ 0)
    (hbounded : c.isBounded = false) (hreach : c.reach = start + c.len) (hdst : c.dst ≤ start)
    (hsize : ∀ m : Memory, c.reach ≤ m.size → (b m).size = c.len)
    (hbytes : ∀ m : Memory, c.reach ≤ m.size → m.byte = f.memory.byte →
      ∀ k < c.len, (b m).getD k 0 = c.source.getD (c.src + k) 0) :
    Makes c (do
      Exec.reserve start c.len
      update fun f => { f with memory := f.memory.write c.dst (b f.memory) }) f s := by
  rcases hreserve : (Exec.reserve start c.len).run (f, s) with ⟨status | _, y⟩
  · -- The memory could not be paid for; where the source is read plays no part in that.
    obtain rfl := eq_of_reserve_error hreserve
    refine ⟨?_, ?_, ?_, fun h => absurd h hlen⟩ <;> rw [Program.run_bind_error hreserve]
    · nofun
    · nofun
    · rw [hbounded]
      exact ⟨nofun, nofun⟩
  · have hwritten : (y.1.memory.write c.dst (b y.1.memory)).size = y.1.memory.size :=
      Memory.size_write _ _ _
    refine ⟨fun f' s' hrun hle k hk => ?_, fun f' s' hrun hf _ hle => ?_, ?_,
      fun h => absurd h hlen⟩
    · rw [Program.run_bind_ok hreserve] at hrun
      cases hrun
      rw [show c.reach ≤ _ ↔ c.reach ≤ y.1.memory.size by rw [← hwritten]] at hle
      have hin : c.dst + k < y.1.memory.size := by omega
      calc (y.1.memory.write c.dst (b y.1.memory)).byte (c.dst + k)
          = (b y.1.memory).getD k 0 := Memory.byte_write_add (by rwa [hsize _ hle]) hin
        _ = c.source.getD (c.src + k) 0 := hbytes _ hle (byte_of_reserve hreserve) k hk
    · obtain ⟨g, t⟩ := y
      have hcovers := (reserve_covers hf hreserve).1 (hreach ▸ hle)
      rw [Program.run_bind_ok hreserve] at hrun
      cases hrun
      exact (hreach ▸ hcovers).trans_eq hwritten.symm
    · rw [Program.run_bind_ok hreserve, hbounded]
      exact ⟨nofun, nofun⟩

end Makes

variable {dst src : Word} {len : Nat}

/-- Bytes from outside of memory are put in place. -/
lemma makes_copyToMemory {data : Bytes} (hdata : data.size < Count.max) (price : Nat) (f : Frame)
    (s : σ) :
    Makes { source := data, src := src.toNat, dst := dst.toNat, len, price }
      (copyToMemory dst src len data) f s := by
  unfold copyToMemory
  split
  · rename_i hlen
    refine .count hlen rfl (.reserve (b := fun _ => data.window src.toCount len) hlen rfl rfl
      le_rfl (fun _ _ => Bytes.size_window _ _ _) fun _ _ _ k hk => ?_)
    calc (data.window src.toCount len).getD k 0
        = data.getD (src.toCount + k) 0 := Bytes.getD_window _ _ hk
      _ = data.getD (src.toNat + k) 0 := Bytes.getD_toCount hdata _ _
  · rename_i hlen
    exact .nothing (not_not.1 hlen) rfl f s

/-- Bytes of memory are put in place as they were, also where they are overwritten. -/
lemma makes_move (price : Nat) (f : Frame) (s : σ) :
    Makes { source := f.memory.bytes, src := src.toNat, dst := dst.toNat, len,
            reach := max dst.toNat src.toNat + len, price } (move dst src len) f s := by
  unfold move
  split
  · rename_i hlen
    -- Memory is made large enough for both windows before a byte is read.
    have hsource {m : Memory} (h : max dst.toNat src.toNat + len ≤ m.size) :
        src.toNat + len ≤ m.size :=
      (Nat.add_le_add_right (le_max_right _ _) len).trans h
    refine .count hlen rfl (.count hlen rfl (.reserve (b := fun m => m.read src.toNat len) hlen rfl
      rfl (le_max_left _ _) (fun _ h => Memory.size_read (hsource h)) fun m h hbyte k hk => ?_))
    calc (m.read src.toNat len).getD k 0
        = m.byte (src.toNat + k) := Memory.getD_read hk (hsource h)
      _ = f.memory.byte (src.toNat + k) := congrFun hbyte _
  · rename_i hlen
    exact .nothing (not_not.1 hlen) rfl f s

/-- Bytes of the frame are put in place, return data only as far as there are any. -/
lemma makes_deliver {source : CopySource} (hsource : (source.read f).size < Count.max)
    (price : Nat) (s : σ) :
    Makes { source := source.read f, isBounded := source.isBounded, src := src.toNat,
            dst := dst.toNat, len, price } (deliver source dst src len) f s := by
  have hcopy : Makes _ (copyToMemory dst src len (source.read f)) f s :=
    makes_copyToMemory hsource price f s
  have hrun : (deliver source dst src len).run (f, s) =
      if source.isBounded = true ∧ (source.read f).size < src.toNat + len then
        (.error .outOfOffset, (f, s))
      else (copyToMemory dst src len (source.read f)).run (f, s) := by
    unfold deliver
    rw [frame_bind_run]
    -- The sum that is compared is one of counts, past the end just where that of the words is.
    simp only [Bytes.size_lt_satAdd_iff hsource]
    split_ifs <;> rfl
  split_ifs at hrun with hpast
  · refine ⟨?_, ?_, ⟨fun _ => hpast, fun _ => by rw [hrun]⟩, fun hlen hin => ?_⟩
    · rw [hrun]
      nofun
    · rw [hrun]
      nofun
    · have hle : src.toNat ≤ (source.read f).size := hin hpast.1
      have hlt : (source.read f).size < src.toNat + len := hpast.2
      have hzero : len = 0 := hlen
      omega
  · obtain ⟨hcopied, hfits, hoffset, hempty⟩ := hcopy
    refine ⟨hrun ▸ hcopied, hrun ▸ hfits, ⟨fun h => ?_, fun h => absurd h hpast⟩, fun hlen _ => ?_⟩
    · rw [hrun] at h
      cases (hoffset.1 h).1
    · rw [hrun]
      exact hempty hlen nofun

/-! ## The instructions that copy -/

/-- What is paid for a copy is paid once its length has turned out to be a count. -/
lemma paid_run (w : Word) (price : Nat → Option Nat) {cost : Nat}
    (hprice : price w.toNat = some cost) (q : Nat → Exec σ Unit) (f : Frame) (s : σ) :
    ∃ status g, status ≠ .outOfOffset ∧ f.SameBytes g ∧
      (do
        let len ← count w
        chargePrice (price len)
        q len : Exec σ Unit).run (f, s) =
        if w.toNat ≤ Count.max ∧ cost ≤ f.gas.remaining then (q w.toNat).run (g, s)
        else (.error status, (f, s)) := by
  by_cases hw : w.toNat ≤ Count.max
  · refine ⟨.outOfGas, { f with gas := { f.gas with remaining := f.gas.remaining - cost } }, nofun,
      ⟨rfl, rfl, rfl, rfl⟩, ?_⟩
    rw [count_bind_run, if_pos hw, hprice, chargePrice_bind_run]
    simp only [hw, true_and]
  · refine ⟨.invalidOperand, f, nofun, ⟨rfl, rfl, rfl, rfl⟩, ?_⟩
    rw [count_bind_run, if_neg hw, if_neg fun h => hw h.1]

lemma copy_eq (source : CopySource) : (copy source : Exec σ Unit) = (do
    let v ← pop3
    let len ← count v.2.2
    chargePrice (Gas.copy len)
    deliver source v.1 v.2.1 len) := by
  cases source with
  | callData => rfl
  | code => rfl
  | returnData =>
    unfold copy copyReturnData deliver
    simp only [CopySource.isBounded, true_and]
    rfl

/-- With its operands on the stack, an instruction makes the copy that it is to make, once the
length has turned out to be a count and the price has been paid. -/
lemma copying_run {i : Instruction} (hc : i.copying? host f s = some c)
    (hsource : c.source.size < Count.max) (hheight : i.inputs ≤ f.stack.height) :
    ∃ (q : Exec σ Unit) (g : Frame) (t : σ) (status : Status) (y : Frame × σ),
      Makes c q g t ∧ f.SameBytes g ∧ status ≠ .outOfOffset ∧
      (i.run host).run (f, s) =
        if c.len ≤ Count.max ∧ c.price ≤ f.gas.remaining then q.run (g, t)
        else (.error status, y) := by
  cases i with
  | copy source =>
    cases hc
    obtain ⟨status, g, hstatus, hg, hrun⟩ := paid_run (f.word 2) Gas.copy (Gas.copy_eq _)
      (deliver source (f.word 0) (f.word 1)) { f with stack := f.stack.drop 3 } s
    have hread : source.read g = source.read f := hg.read source
    refine ⟨deliver source (f.word 0) (f.word 1) (f.word 2).toNat, g, s, status,
      ({ f with stack := f.stack.drop 3 }, s), ?_,
      ⟨hg.invocation, hg.memory, hg.gas, hg.returnData⟩, hstatus, ?_⟩
    · rw [← hread] at hsource ⊢
      exact makes_deliver hsource _ s
    · change (copy source).run (f, s) = _
      rw [copy_eq, Program.run_bind_ok (pop3_run hheight s)]
      exact hrun
  | mcopy =>
    cases hc
    obtain ⟨status, g, hstatus, hg, hrun⟩ := paid_run (f.word 2) Gas.copy (Gas.copy_eq _)
      (move (f.word 0) (f.word 1)) { f with stack := f.stack.drop 3 } s
    have hmemory : g.memory = f.memory := hg.memory
    refine ⟨move (f.word 0) (f.word 1) (f.word 2).toNat, g, s, status,
      ({ f with stack := f.stack.drop 3 }, s), ?_,
      ⟨hg.invocation, hg.memory, hg.gas, hg.returnData⟩, hstatus, ?_⟩
    · rw [← hmemory]
      exact makes_move _ g s
    · change (do
        let v ← pop3
        let len ← count v.2.2
        chargePrice (Gas.copy len)
        move v.1 v.2.1 len : Exec σ Unit).run (f, s) = _
      rw [Program.run_bind_ok (pop3_run hheight s)]
      exact hrun
  | extCodeCopy =>
    unfold Instruction.copying? at hc
    rcases hcode : (host.code (f.word 0).toAddress).run s with ⟨_ | code, t⟩ <;> rw [hcode] at hc
    · cases hc
    cases hc
    have hprice : extCodeCopyPrice f.features (f.word 3).toNat code.isCold =
        some (Gas.copyWord * Count.words (f.word 3).toNat +
          Gas.coldAccountSurcharge f.features code.isCold) := by
      rw [extCodeCopyPrice, Gas.copy_eq]
      rfl
    obtain ⟨status, g, hstatus, hg, hrun⟩ := paid_run (f.word 3)
      (fun len => extCodeCopyPrice f.features len code.isCold) hprice
      (fun len => copyToMemory (f.word 1) (f.word 2) len code.value.bytes)
      { f with stack := f.stack.drop 4 } t
    refine ⟨copyToMemory (f.word 1) (f.word 2) (f.word 3).toNat code.value.bytes, g, t, status,
      ({ f with stack := f.stack.drop 4 }, t), makes_copyToMemory hsource _ _ t,
      ⟨hg.invocation, hg.memory, hg.gas, hg.returnData⟩, hstatus, ?_⟩
    change (extCodeCopy host).run (f, s) = _
    unfold extCodeCopy
    rw [Program.run_bind_ok (pop4_run hheight s)]
    dsimp only
    rw [ask_bind_run hcode, count_bind_run, frame_bind_run]
    rw [count_bind_run] at hrun
    exact hrun
  | _ => cases hc

/-- The frame that an instruction is run in differs from the one that it is fetched in by the price
and the position. -/
lemma next_run (host : Host σ) {i : Instruction} (hi : f.instruction? = some i) (s : σ) :
    ∃ g status, f.SameBytes g ∧ g.stack = f.stack ∧
      g.gas.remaining = f.gas.remaining - Gas.base f.features i ∧
      (next host).run (f, s) =
        if i.isActive f.features = true ∧ Gas.base f.features i ≤ f.gas.remaining then
          (i.run host).run (g, s)
        else (.error status, (f, s)) := by
  have hfetch := fetch_run hi s
  refine ⟨{ f with
    gas := { f.gas with remaining := f.gas.remaining - Gas.base f.features i }
    pc := f.pc + 1 }, if i.isActive f.features then .outOfGas else .inactiveOpcode,
    ⟨rfl, rfl, rfl, rfl⟩, rfl, rfl, ?_⟩
  rw [next_eq]
  split at hfetch
  · rename_i h
    rw [if_pos h]
    exact Program.run_bind_ok hfetch
  · rename_i h
    rw [if_neg h]
    exact Program.run_bind_error hfetch

/-- An instruction writes where it is to copy to. -/
lemma target_of_copying {i : Instruction} (hc : i.copying? host f s = some c) :
    i.target f = ⟨c.dst, c.len⟩ := by
  cases i with
  | copy source =>
    cases hc
    rfl
  | mcopy =>
    cases hc
    rfl
  | extCodeCopy =>
    obtain ⟨code, -, rfl⟩ := Option.map_eq_some_iff.1 hc
    rfl
  | _ => cases hc

/-- The next instruction writes nowhere but where it is to copy to. -/
lemma spares_next_copying {i : Instruction} (hi : f.instruction? = some i)
    (hc : i.copying? host f s = some c) (hrun : (next host).run (f, s) = (.ok (), (f', s'))) :
    Memory.Spares ⟨c.dst, c.len⟩ f.memory f'.memory := by
  obtain ⟨g, status, hg, hstack, -, hnext⟩ := next_run host hi s
  rw [hrun] at hnext
  split_ifs at hnext
  · have hcall (scheme : CallScheme) : i ≠ .call scheme := by
      rintro rfl
      cases hc
    have htends : Tends (i.target g) (i.run host) (g, s) :=
      tends_instruction (x := (g, s)) hcall
    have hc' : i.copying? host g s = some c := by rw [hg.copying? hstack, hc]
    have hspares := htends.1
    rw [← hnext, target_of_copying hc'] at hspares
    exact hg.memory ▸ hspares
  · cases hnext

/-- Next comes the copy that the instruction is to make, if its operands are there and its price has
been paid. -/
lemma next_copying_run {i : Instruction} (hi : f.instruction? = some i)
    (hc : i.copying? host f s = some c) (hsource : c.source.size < Count.max)
    (hheight : i.inputs ≤ f.stack.height) :
    ∃ (q : Exec σ Unit) (g : Frame) (t : σ) (status : Status) (y : Frame × σ),
      Makes c q g t ∧ f.SameBytes g ∧
      ((i.isActive f.features = true ∧ c.len ≤ Count.max ∧
          Gas.base f.features i + c.price ≤ f.gas.remaining) →
        (next host).run (f, s) = q.run (g, t)) ∧
      (¬(i.isActive f.features = true ∧ c.len ≤ Count.max ∧
          Gas.base f.features i + c.price ≤ f.gas.remaining) →
        (next host).run (f, s) = (.error status, y)) := by
  obtain ⟨g, status, hg, hstack, hgas, hnext⟩ := next_run host hi s
  have hc' : i.copying? host g s = some c := by rw [hg.copying? hstack, hc]
  obtain ⟨q, g', t, status', y, hmakes, hg', -, hrun⟩ :=
    copying_run hc' hsource (hheight.trans_eq (congrArg Stack.height hstack).symm)
  rw [hrun, hgas] at hnext
  by_cases hactive : i.isActive f.features = true ∧ Gas.base f.features i ≤ f.gas.remaining
  · rw [if_pos hactive] at hnext
    refine ⟨q, g', t, status', y, hmakes, hg.trans hg', fun h => ?_, fun h => ?_⟩
    · rw [hnext, if_pos ⟨h.2.1, by omega⟩]
    · rw [hnext, if_neg fun hpaid => h ⟨hactive.1, hpaid.1, by omega⟩]
  · rw [if_neg hactive] at hnext
    exact ⟨q, g', t, status, (f, s), hmakes, hg.trans hg',
      fun h => absurd ⟨h.1, by omega⟩ hactive, fun _ => hnext⟩

/-- Where the next instruction succeeds, it has made the copy that it is to make. -/
lemma next_copying_done {i : Instruction} (hi : f.instruction? = some i)
    (hc : i.copying? host f s = some c) (hsource : c.source.size < Count.max)
    (hrun : (next host).run (f, s) = (.ok (), (f', s'))) : c.Done f f' := by
  obtain ⟨q, g, t, status, y, hmakes, hg, hpaid, hnot⟩ :=
    next_copying_run hi hc hsource ((next_trades host s hi).1 _ _ hrun).1.enough
  have hq : q.run (g, t) = (.ok (), (f', s')) := by
    by_contra hne
    rw [hrun] at hpaid hnot
    by_cases h : i.isActive f.features = true ∧ c.len ≤ Count.max ∧
        Gas.base f.features i + c.price ≤ f.gas.remaining
    · exact hne (hpaid h).symm
    · cases hnot h
  refine ⟨hmakes.copied f' s' hq, spares_next_copying hi hc hrun,
    fun hf => hmakes.fits f' s' hq (hg.sized hf), fun hbounded => ?_⟩
  -- Had it been read past the end, the instruction would have halted.
  by_contra hpast
  have hhalts := hmakes.bounded.2 ⟨hbounded, Nat.lt_of_not_le hpast⟩
  rw [hq] at hhalts
  cases hhalts

/-- Loading a word of call data costs no more than its base price, and cannot fail for where it is
loaded from. -/
lemma next_callDataLoad (hi : f.instruction? = some .callDataLoad)
    (hinput : f.input.size < Count.max) (hheight : 1 ≤ f.stack.height)
    (hgas : Gas.base f.features .callDataLoad ≤ f.gas.remaining) :
    ∃ f' w, (next host).run (f, s) = (.ok (), (f', s)) ∧ f'.memory = f.memory ∧
      f'.stack.words = w :: f.stack.words.tail ∧
      w.toNat = ∑ k ∈ Finset.range 32,
        (f.input.getD ((f.word 0).toNat + k) 0).toNat * 256 ^ (31 - k) := by
  obtain ⟨g, status, hg, hstack, -, hnext⟩ := next_run host hi s
  rw [if_pos ⟨rfl, hgas⟩] at hnext
  have hword : g.word 0 = f.word 0 := by
    unfold Frame.word
    rw [hstack]
  have hinput' : g.input = f.input := congrArg Invocation.input hg.invocation
  have hoperand := operand_run (hheight.trans_eq (congrArg Stack.height hstack).symm) s
  have hrun : (callDataLoad : Exec σ Unit).run (g, s) = (.ok (), ({ g with
      stack := (g.stack.drop 0).setTop (g.input.window (g.word 0).toCount 32).toWord }, s)) := by
    unfold callDataLoad
    rw [Program.run_bind_ok hoperand, frame_bind_run]
    rfl
  rw [hword, hinput'] at hrun
  refine ⟨_, (f.input.window (f.word 0).toCount 32).toWord, hnext.trans hrun, hg.memory, ?_, ?_⟩
  · show (g.stack.words.drop 0).set 0 _ = _
    have hlength := f.stack.height_eq
    rw [hstack, List.drop_zero]
    cases hwords : f.stack.words with
    | nil =>
      rw [hwords] at hlength
      exact absurd hheight (by rw [hlength]; decide)
    | cons top rest => rfl
  · rw [Bytes.toNat_toWord_window _ _ le_rfl]
    exact Finset.sum_congr rfl fun k _ => by rw [Bytes.getD_toCount hinput]

end Exec

/-- Copies read a source that goes on with zero bytes for ever. Where an instruction that copies
succeeds it has made its copy: with the memory that it uses in place, each byte is the one at the
sum of offset and position, and zero past the end; for a copy within memory it is the byte from
before, whether the windows overlap or not. No other byte has changed. With operands and gas in
place, only the instruction that copies return data halts because of where it reads, and it does so
exactly if offset and length go past the end, even where the length is zero; otherwise copying no
bytes does nothing, whatever the offsets. And loading a word of call data gives the 32 bytes from its
offset on. The byte strings are as short as any that a machine can address. -/
theorem Exec.next_copies (host : Host σ) (f : Frame) (s : σ) :
    (∀ i c, f.instruction? = some i → i.copying? host f s = some c → c.source.size < Count.max →
      (∀ f' s', (next host).run (f, s) = (.ok (), (f', s')) → c.Done f f') ∧
      (i.isActive f.features = true → i.inputs ≤ f.stack.height → c.len ≤ Count.max →
        Gas.base f.features i + c.price ≤ f.gas.remaining →
        (((next host).run (f, s)).1 = .error .outOfOffset ↔
          c.isBounded = true ∧ c.source.size < c.src + c.len) ∧
        (c.len = 0 → (c.isBounded = true → c.src ≤ c.source.size) →
          ∃ f' s', (next host).run (f, s) = (.ok (), (f', s')) ∧ f'.memory = f.memory ∧
            f'.gas.memory = f.gas.memory))) ∧
    (f.instruction? = some .callDataLoad → f.input.size < Count.max → 1 ≤ f.stack.height →
      Gas.base f.features .callDataLoad ≤ f.gas.remaining →
      ∃ f' w, (next host).run (f, s) = (.ok (), (f', s)) ∧ f'.memory = f.memory ∧
        f'.stack.words = w :: f.stack.words.tail ∧
        w.toNat = ∑ k ∈ Finset.range 32,
          (f.input.getD ((f.word 0).toNat + k) 0).toNat * 256 ^ (31 - k)) := by
  refine ⟨fun i c hi hc hsource => ⟨fun f' s' hrun => next_copying_done hi hc hsource hrun,
    fun hactive hheight hlen hgas => ?_⟩, next_callDataLoad⟩
  obtain ⟨q, g, t, status, y, hmakes, hg, hpaid, -⟩ := next_copying_run hi hc hsource hheight
  rw [hpaid ⟨hactive, hlen, hgas⟩]
  exact ⟨hmakes.bounded, fun hzero hin => ⟨g, t, hmakes.empty hzero hin, hg.memory, hg.gas⟩⟩

/-- A frame with two bytes of call data and no return data, about to use three bytes from the second
one on. -/
def Frame.copying (opcode : UInt8) : Frame where
  toInvocation := { code := .ofHashed #[opcode] 0, input := #[7, 8], features := .ofList [.eip211] }
  gas := .full 100
  stack := ⟨[1, 1, 3, 9], 4, rfl, by decide⟩

/-- Of three bytes from the second one on the first is there and the others are zero; as return data
there are none. -/
theorem Exec.next_copies_second_byte :
    (∃ f' s', (next Sandbox.host).run (.copying 0x37, {}) = (.ok (), (f', s')) ∧
      f'.memory.byte 0 = 0 ∧ f'.memory.byte 1 = 8 ∧ f'.memory.byte 2 = 0 ∧
      f'.memory.byte 3 = 0) ∧
    ((next Sandbox.host).run (.copying 0x3e, {})).1 = .error .outOfOffset ∧
    ∃ f' w, (next Sandbox.host).run (.copying 0x35, {}) = (.ok (), (f', {})) ∧
      f'.stack.words = [w, 1, 3, 9] ∧ w.toNat = 8 * 256 ^ 31 := by
  refine ⟨?_, ?_, ?_⟩
  · obtain ⟨f', s', hrun⟩ : ∃ f' s', (next Sandbox.host).run (.copying 0x37, {}) =
        (.ok (), (f', s')) := ⟨_, _, rfl⟩
    obtain ⟨hdone, -⟩ := (next_copies Sandbox.host (.copying 0x37) {}).1 (.copy .callData) _
      (by decide) rfl (by decide)
    obtain ⟨hcopied, hspared, hfits, -⟩ := hdone f' s' hrun
    have hsized : (Frame.copying 0x37).Sized := ⟨rfl, Gas.Meter.priced_full 100⟩
    have hbytes := hcopied (hfits hsized (by decide) (by decide))
    exact ⟨f', s', hrun, hspared.byte 0 (by decide), hbytes 0 (by decide), hbytes 1 (by decide),
      hbytes 2 (by decide)⟩
  · obtain ⟨-, hhalts⟩ := (next_copies Sandbox.host (.copying 0x3e) {}).1 (.copy .returnData) _
      (by decide) rfl (by decide)
    exact (hhalts (by decide) (by decide) (by decide) (by decide)).1.2 (by decide)
  · obtain ⟨f', w, hrun, -, hwords, hw⟩ := (next_copies Sandbox.host (.copying 0x35) {}).2
      (by decide) (by decide) (by decide) (by decide)
    exact ⟨f', w, hrun, hwords, hw.trans (by decide +kernel)⟩

end Evm
