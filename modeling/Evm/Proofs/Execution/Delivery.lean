import Evm.Proofs.Execution.Memory

/-!
# Where output goes

A call makes two windows of its memory usable before the host is asked, one for the input and one
for the output. Nothing but what fits of the output is written afterwards, to the second window, and
that only if the call has succeeded or has been reverted; a creation has no such window
(`Exec.next_delivers`).
-/

namespace Evm

variable {σ α : Type} {host : Host σ}

/-! ## Memory that receives output -/

/-- Number of bytes that the window gets of the output. -/
def Window.delivered (w : Window) (o : Outcome) : Nat :=
  if o.status.isOk ∨ o.status.isRevert then Nat.min w.size o.output.size else 0

lemma Window.delivered_le (w : Window) (o : Outcome) : w.delivered o ≤ w.size := by
  unfold delivered
  split
  · exact Nat.min_le_left _ _
  · exact Nat.zero_le _

namespace Memory

variable (m : Memory) (out : Window) (o : Outcome)

@[simp] lemma size_receive : (m.receive out o).size = m.size := by
  unfold receive
  split
  · exact m.size_write _ _
  · rfl

/-- The first bytes of the output are in the window, as far as the memory goes. -/
lemma byte_receive (j : Nat) :
    (m.receive out o).byte j =
      if (out.start ≤ j ∧ j < out.start + out.delivered o) ∧ j < m.size then
        o.output.getD (j - out.start) 0
      else m.byte j := by
  unfold receive Window.delivered
  by_cases hdelivered : o.status.isOk ∨ o.status.isRevert
  · rw [if_pos hdelivered, if_pos hdelivered, byte_write]
    have hsize : (o.output.extract 0 (Nat.min out.size o.output.size)).size =
        Nat.min out.size o.output.size := by
      rw [Array.size_extract, Nat.sub_zero]
      exact Nat.min_eq_left (Nat.min_le_right _ _)
    rw [hsize]
    refine if_ctx_congr Iff.rfl (fun h => ?_) fun _ => rfl
    have hlt : j - out.start < Nat.min out.size o.output.size := by
      obtain ⟨⟨hle, hlt⟩, -⟩ := h
      omega
    have hwithin : j - out.start <
        min (Nat.min out.size o.output.size) o.output.size - 0 :=
      lt_min hlt (hlt.trans_le (Nat.min_le_right _ _))
    simp only [Array.getD_eq_getD_getElem?, Array.getElem?_extract, Nat.zero_add]
    rw [if_pos hwithin]
  · rw [if_neg hdelivered, if_neg hdelivered, if_neg]
    omega

end Memory

/-! ## The window of a call -/

/-- The window `out` is the one that the operands name, and the second frame has it in its memory.
-/
structure Window.Opened (named out : Window) (f f₁ : Frame) : Prop where
  size : out.size = named.size
  start : 0 < named.size → out.start = named.start
  fits : f.Sized → named.start + named.size ≤ Memory.limit → 0 < named.size →
    named.start + named.size ≤ f₁.memory.size

/-- What the window that was asked for receives is in the window that the operands name. -/
lemma Window.Opened.byte_receive {named out : Window} {f f₁ : Frame} (h : named.Opened out f f₁)
    (o : Outcome) (j : Nat) :
    (f₁.memory.receive out o).byte j =
      if (named.start ≤ j ∧ j < named.start + named.delivered o) ∧ j < f₁.memory.size then
        o.output.getD (j - named.start) 0
      else f₁.memory.byte j := by
  have hdelivered : out.delivered o = named.delivered o := by
    unfold delivered
    rw [h.size]
  rw [Memory.byte_receive, hdelivered]
  -- A window without bytes is not looked for where the operands say, and receives nothing.
  rcases Nat.eq_zero_or_pos named.size with hzero | hpos
  · have hnone : named.delivered o = 0 := Nat.le_zero.1 (hzero ▸ named.delivered_le o)
    rw [hnone, if_neg (by omega), if_neg (by omega)]
  · rw [h.start hpos]

/-- The words below the ones that are taken. -/
lemma Frame.word_drop (f : Frame) (n k : Nat) :
    Frame.word { f with stack := f.stack.drop n } k = f.word (n + k) := by
  simp only [word, Stack.drop, List.getD_eq_getElem?_getD, List.getElem?_drop]

namespace Exec

variable {x y : Frame × σ} {scheme : CallScheme}

/-- The windows are named by the four topmost words. -/
lemma callWindows_eq_ok {v : Bytes × Window} (h : (callWindows).run x = (.ok v, y)) :
    Window.Opened ⟨(x.1.word 2).toNat, (x.1.word 3).toNat⟩ v.2 x.1 y.1 := by
  obtain ⟨words, x₁, hpop, h₁⟩ := Program.run_bind_eq_ok h
  obtain ⟨rfl, rfl⟩ := pop4_eq_ok hpop
  obtain ⟨len, x₂, hcount, h₂⟩ := Program.run_bind_eq_ok h₁
  obtain ⟨rfl, rfl⟩ := count_eq_ok hcount
  obtain ⟨input, x₃, hread, h₃⟩ := Program.run_bind_eq_ok h₂
  obtain ⟨size, x₄, hcount', h₄⟩ := Program.run_bind_eq_ok h₃
  obtain ⟨rfl, rfl⟩ := count_eq_ok hcount'
  split at h₄
  · rename_i hzero
    cases h₄
    exact ⟨hzero.symm, fun hpos => absurd hzero hpos.ne', fun _ _ hpos => absurd hzero hpos.ne'⟩
  · obtain ⟨start, x₅, hcount'', h₅⟩ := Program.run_bind_eq_ok h₄
    obtain ⟨rfl, rfl⟩ := count_eq_ok hcount''
    obtain ⟨_, ⟨f₆, s₆⟩, hreserve, h₆⟩ := Program.run_bind_eq_ok h₅
    cases h₆
    refine ⟨rfl, fun _ => rfl, fun hx hle _ => ?_⟩
    have hsized := (onlyGrows_readMemory _ _).sized hread ⟨hx.size, hx.priced⟩
    exact (reserve_covers hsized hreserve).1 hle

lemma callOperands_eq_ok {v : Word × Address × Word}
    (h : (callOperands scheme).run x = (.ok v, y)) :
    y = ({ x.1 with stack := x.1.stack.drop (if takesValue scheme then 3 else 2) }, x.2) := by
  unfold callOperands at h
  split_ifs at h ⊢
  · obtain ⟨words, x₁, hpop, hrest⟩ := Program.run_bind_eq_ok h
    cases hrest
    exact (pop3_eq_ok hpop).2
  · obtain ⟨words, x₁, hpop, hrest⟩ := Program.run_bind_eq_ok h
    cases hrest
    exact (pop2_eq_ok hpop).2

lemma callRequest_out (f : Frame) (callee : Address) (value : Word) (input : Bytes)
    (gasLimit : Nat) (out : Window) :
    (callRequest f scheme callee value input gasLimit out).out = out := by
  cases scheme <;> rfl

/-- The windows of a call stay open until the host is asked. -/
lemma openCall_eq_ok {v : Word × Address × Word} {request : CallRequest}
    (h : (openCall host scheme v).run x = (.ok request, y)) :
    Window.Opened ⟨(x.1.word 2).toNat, (x.1.word 3).toNat⟩ request.out x.1 y.1 := by
  obtain ⟨⟨input, out⟩, x₁, hopen, h₁⟩ := Program.run_bind_eq_ok h
  obtain ⟨grant, x₂, hgrant, h₂⟩ := Program.run_bind_eq_ok h₁
  obtain ⟨_, x₃, hcharge, h₃⟩ := Program.run_bind_eq_ok h₂
  cases h₃
  rw [callRequest_out]
  have hopened := callWindows_eq_ok hopen
  have hle : x₁.1.memory.size ≤ y.1.memory.size :=
    ((onlyGrows_callGrant _ _ _ _).size_le hgrant).trans ((onlyGrows_charge _).size_le hcharge)
  exact ⟨hopened.size, hopened.start, fun hx hlimit hpos => (hopened.fits hx hlimit hpos).trans hle⟩

/-- A call opens its windows once its first operands have been taken. -/
lemma prepareCall_run_ok {request : CallRequest}
    (h : (prepareCall host scheme).run x = (.ok request, y)) :
    ∃ v z, (callOperands scheme).run x = (.ok v, z) ∧
      (openCall host scheme v).run z = (.ok request, y) := by
  obtain ⟨v, z, hoperands, hrest⟩ := Program.run_bind_eq_ok h
  refine ⟨v, z, hoperands, ?_⟩
  obtain ⟨f, s⟩ := z
  dsimp only at hrest
  split at hrest
  · rw [frame_bind_run] at hrest
    split at hrest
    · cases hrest
    · exact hrest
  · exact hrest

/-- A call asks for its output where its operands say. -/
lemma prepareCall_eq_ok {request : CallRequest}
    (h : (prepareCall host scheme).run x = (.ok request, y)) :
    Window.Opened ((Instruction.call scheme).target x.1) request.out x.1 y.1 := by
  obtain ⟨v, z, hoperands, hopen⟩ := prepareCall_run_ok h
  have hopened := openCall_eq_ok hopen
  have hz := callOperands_eq_ok hoperands
  have htarget : (Instruction.call scheme).target x.1 =
      ⟨(z.1.word 2).toNat, (z.1.word 3).toNat⟩ := by
    rw [hz, Frame.word_drop, Frame.word_drop]
    cases scheme <;> rfl
  rw [htarget]
  refine ⟨hopened.size, hopened.start, fun hx => hopened.fits ?_⟩
  rw [hz]
  exact ⟨hx.size, hx.priced⟩

/-- What comes to the errand of a call asks for the output where the operands say. -/
lemma errand_opens {request : CallRequest} {i : Instruction}
    (h : (errand host).run x = (.ok (some (.call request)), y)) (hi : x.1.instruction? = some i) :
    Window.Opened (i.target x.1) request.out x.1 y.1 := by
  obtain ⟨scheme, z, hfetch, hprepare⟩ := errand_eq_call h
  obtain ⟨hi', hstack, -⟩ := fetch_eq_ok hfetch
  obtain rfl : i = .call scheme := Option.some.inj (hi.symm.trans hi')
  have hopened := prepareCall_eq_ok hprepare
  have htarget : (Instruction.call scheme).target x.1 = (Instruction.call scheme).target z.1 := by
    unfold Instruction.target Frame.word
    rw [hstack]
  rw [htarget]
  exact ⟨hopened.size, hopened.start, fun hx => hopened.fits (onlyGrows_fetch.sized hfetch hx)⟩

/-- Only creations come to the errand of a creation, and they write nothing. -/
lemma target_of_errand_create {request : CreateRequest} {i : Instruction}
    (h : (errand host).run x = (.ok (some (.create request)), y))
    (hi : x.1.instruction? = some i) : i.target x.1 = {} := by
  obtain ⟨i', z, hfetch, hrest⟩ := Program.run_bind_eq_ok h
  obtain rfl : i = i' := Option.some.inj (hi.symm.trans (fetch_eq_ok hfetch).1)
  cases i with
  | create salted => rfl
  | call scheme =>
    obtain ⟨_, _, -, hrun⟩ := Program.run_bind_eq_ok hrest
    cases hrun
  | _ => cases hrest

/-! ## What the frame is left with -/

variable {f f₁ : Frame} {s s₁ : σ} {errand : Errand}

/-- Output is delivered to the window of the caller and nowhere else. An instruction that has its
host run another frame, which does not fail for good, leaves the memory as large as it was when the
host was asked. In the window that the operands name, if it ends within the largest size of memory,
a call puts as much of the output as fits, if it has succeeded or has been reverted, and no other
byte changes; a creation changes none. The return data is the output of a call, or of a creation
that has been reverted; and one word is pushed in place of the operands, which tells of success. -/
theorem next_delivers (herrand : (Exec.errand host).run (f, s) = (.ok (some errand), (f₁, s₁)))
    (hfatal : (host.outcomeOf s₁ errand).status ≠ .fatal)
    (hout : ∀ request, errand = .call request → (host.call request s₁).1.out = request.out) :
    ∃ i f' s', f.instruction? = some i ∧ (next host).run (f, s) = (.ok (), (f', s')) ∧
      let o := host.outcomeOf s₁ errand
      let w := i.target f
      let n := w.delivered o
      f'.memory.size = f₁.memory.size ∧
      (f.Sized → w.start + w.size ≤ Memory.limit →
        ∀ k < n, f'.memory.byte (w.start + k) = o.output.getD k 0) ∧
      (∀ j, (w.start ≤ j → w.start + n ≤ j) → f'.memory.byte j = f₁.memory.byte j) ∧
      f'.returnData = (match errand with
        | .call _ => o.output
        | .create _ => if o.status.isRevert then o.output else #[]) ∧
      f'.stack.words = (match errand with
        | .call _ => if o.status.isOk then 1 else 0
        | .create request =>
          if o.status.isOk then ((host.create request s₁).1.address?.map Word.ofAddress).getD 0
          else 0) :: f.stack.words.drop i.inputs := by
  obtain ⟨i, hi, -, -, hstack⟩ := errand_takes herrand
  obtain ⟨f', s', hrun, htakes⟩ := next_run_of_errand herrand hfatal
  refine ⟨i, f', s', hi, hrun, ?_⟩
  intro o w n
  have hopened : w.Opened (host.report s₁ errand).out f f₁ := by
    cases errand with
    | call request =>
      change w.Opened (host.call request s₁).1.out f f₁
      rw [hout request rfl]
      exact errand_opens herrand hi
    | create request =>
      obtain hw : w = {} := target_of_errand_create herrand hi
      rw [hw]
      exact ⟨rfl, nofun, nofun⟩
  have hmemory : f'.memory = f₁.memory.receive (host.report s₁ errand).out o := by
    rw [htakes.memory, host.outcome_report]
  have hbyte := hopened.byte_receive o
  have hwords : f₁.stack.words = f.stack.words.drop i.inputs := congrArg Stack.words hstack
  rw [hmemory]
  refine ⟨Memory.size_receive _ _ _, fun hf hlimit k hk => ?_, fun j hj => ?_, ?_, ?_⟩
  · have hle : n ≤ w.size := w.delivered_le o
    have hfits := hopened.fits hf hlimit (by omega)
    rw [hbyte, if_pos ⟨⟨Nat.le_add_right _ _, Nat.add_lt_add_left hk _⟩, by omega⟩,
      Nat.add_sub_cancel_left]
  · rw [hbyte, if_neg]
    rintro ⟨⟨hle, hlt⟩, -⟩
    exact absurd (hj hle) (Nat.not_le_of_lt hlt)
  · rw [htakes.returnData]
    cases errand <;> rfl
  · rw [htakes.stack, hwords]
    cases errand <;> rfl

end Exec

/-- A sandbox whose calls are reverted with three bytes of output. -/
def Sandbox.reverting : Host Sandbox where
  __ := Sandbox.host
  call r := fun s =>
    (⟨{ status := .revert, output := #[1, 2, 3], gas := .full r.gasLimit }, r.out⟩, s)

/-- A frame about to make a call with a window of two bytes at 40 for the output. -/
def Frame.calling : Frame where
  toInvocation := { code := .ofHashed #[0xf1] 0, features := .empty }
  gas := .full 100000
  stack := ⟨[5000, 0xaa, 0, 0, 0, 40, 2, 9], 8, rfl, by decide⟩

/-- The first two bytes of the output are put in the window, and all three stay. -/
theorem Exec.next_delivers_reverted :
    ∃ errand f₁ s₁ f' s', (Exec.errand Sandbox.reverting).run (.calling, {}) =
        (.ok (some errand), (f₁, s₁)) ∧
      (Sandbox.reverting.outcomeOf s₁ errand).status ≠ .fatal ∧
      (∀ request, errand = .call request →
        (Sandbox.reverting.call request s₁).1.out = request.out) ∧
      Frame.calling.Sized ∧
      (next Sandbox.reverting).run (.calling, {}) = (.ok (), (f', s')) ∧
      f'.memory.byte 40 = 1 ∧ f'.memory.byte 41 = 2 ∧
      f'.memory.byte 42 = f₁.memory.byte 42 ∧ f'.returnData = #[1, 2, 3] ∧
      f'.stack.words = [0, 9] := by
  obtain ⟨request, f₁, s₁, herrand⟩ : ∃ request f₁ s₁,
      (Exec.errand Sandbox.reverting).run (.calling, {}) =
        (.ok (some (.call request)), (f₁, s₁)) := ⟨_, _, _, rfl⟩
  have hfatal : (Sandbox.reverting.outcomeOf s₁ (.call request)).status ≠ .fatal := nofun
  have hout (request' : CallRequest) (_ : Errand.call request = .call request') :
      (Sandbox.reverting.call request' s₁).1.out = request'.out := rfl
  obtain ⟨i, f', s', hi, hrun, -, hprefix, hother, hreturnData, hstack⟩ :=
    next_delivers herrand hfatal hout
  obtain rfl : Instruction.call .call = i := Option.some.inj hi
  have hsized : Frame.calling.Sized := ⟨rfl, Gas.Meter.priced_full 100000⟩
  have hdelivered : ((Instruction.call .call).target .calling).delivered
      (Sandbox.reverting.outcomeOf s₁ (.call request)) = 2 := rfl
  rw [hdelivered] at hprefix hother
  have hbytes := hprefix hsized (by decide)
  exact ⟨.call request, f₁, s₁, f', s', herrand, hfatal, hout, hsized, hrun, hbytes 0 (by decide),
    hbytes 1 (by decide), hother 42 fun _ => by decide, hreturnData, hstack⟩

end Evm
