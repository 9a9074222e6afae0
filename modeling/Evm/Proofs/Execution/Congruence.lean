import Evm.Execution.Step
import Evm.Proofs.Simulation

/-!
# Hosts that cannot be told apart

A frame sees of its host only what the operations answer. If two hosts, over states of two types,
answer alike in related states and leave related states, then every frame runs on one as it does on
the other: every instruction does (`Exec.same_instruction`), hence every step, and by induction on
the steps every run (`Host.Alike.run`).
-/

namespace Evm

variable {σ τ α β : Type}

/-- In related states all operations of the two hosts do alike. -/
structure Host.Alike (R : σ → τ → Prop) (host : Host σ) (host' : Host τ) : Prop where
  env : ∀ {s t}, R s t → host.env s = host'.env t
  beforeStep : ∀ f, Evm.Alike R (host.beforeStep f) (host'.beforeStep f)
  afterStep : ∀ f, Evm.Alike R (host.afterStep f) (host'.afterStep f)
  presence : ∀ a, HostM.Alike R (host.presence a) (host'.presence a)
  balance : ∀ a, HostM.Alike R (host.balance a) (host'.balance a)
  code : ∀ a, HostM.Alike R (host.code a) (host'.code a)
  codeHash : ∀ a, HostM.Alike R (host.codeHash a) (host'.codeHash a)
  loadSlot : ∀ a index, HostM.Alike R (host.loadSlot a index) (host'.loadSlot a index)
  storeSlot : ∀ a index value,
    HostM.Alike R (host.storeSlot a index value) (host'.storeSlot a index value)
  loadTransient : ∀ a index, Evm.Alike R (host.loadTransient a index) (host'.loadTransient a index)
  storeTransient : ∀ a index value,
    Evm.Alike R (host.storeTransient a index value) (host'.storeTransient a index value)
  log : ∀ entry, Evm.Alike R (host.log entry) (host'.log entry)
  selfDestruct : ∀ a b, HostM.Alike R (host.selfDestruct a b) (host'.selfDestruct a b)
  call : ∀ request, Evm.Alike R (host.call request) (host'.call request)
  create : ∀ request, Evm.Alike R (host.create request) (host'.create request)

namespace Exec

variable {R : σ → τ → Prop} {host : Host σ} {host' : Host τ}

/-- The same frame on hosts in related states. -/
def Beside (R : σ → τ → Prop) (x : Frame × σ) (y : Frame × τ) : Prop := x.1 = y.1 ∧ R x.2 y.2

/-- On hosts in related states the two programs do the same to the frame, and they leave the hosts
in related states. -/
abbrev Same (R : σ → τ → Prop) (p : Exec σ α) (p' : Exec τ α) : Prop :=
  Program.Alike (Beside R) p p'

/-! ## Primitive steps -/

lemma same_halt (status : Status) : Same R (halt status : Exec σ α) (halt status) := .throw status

lemma same_frame : Same R (frame : Exec σ Frame) frame := by
  rintro ⟨f, s⟩ ⟨_, t⟩ ⟨rfl, h⟩
  exact ⟨rfl, rfl, h⟩

lemma same_update (g : Frame → Frame) : Same R (update g : Exec σ Unit) (update g) := by
  rintro ⟨f, s⟩ ⟨_, t⟩ ⟨rfl, h⟩
  exact ⟨rfl, rfl, h⟩

lemma same_tell {op : StateM σ α} {op' : StateM τ α} (h : Alike R op op') :
    Same R (tell op) (tell op') := by
  rintro ⟨f, s⟩ ⟨_, t⟩ ⟨rfl, hst⟩
  obtain ⟨heq, hst'⟩ := h s t hst
  exact ⟨congrArg Except.ok heq, rfl, hst'⟩

lemma same_ask {op : HostM σ α} {op' : HostM τ α} (h : HostM.Alike R op op') :
    Same R (ask op) (ask op') := by
  refine .bind (same_tell h) fun a? => ?_
  cases a? with
  | none => exact .throw _
  | some a => exact .pure a

lemma same_active (eip : Eip) : Same R (active eip : Exec σ Bool) (active eip) :=
  .bind same_frame fun _ => .pure _

lemma same_forbidStatic : Same R (forbidStatic : Exec σ Unit) forbidStatic :=
  .bind same_frame fun _ => .ite (same_halt _) (.pure _)

lemma same_pop (n : Nat) : Same R (pop n : Exec σ (Vector Word n)) (pop n) := by
  refine .bind same_frame fun f => ?_
  rcases f.stack.pop? n with _ | ⟨words, stack⟩
  · exact same_halt _
  · exact .bind (same_update _) fun _ => .pure _

lemma same_pop1 : Same R (pop1 : Exec σ Word) pop1 := .bind (same_pop 1) fun _ => .pure _

lemma same_pop2 : Same R (pop2 : Exec σ (Word × Word)) pop2 :=
  .bind (same_pop 2) fun _ => .pure _

lemma same_pop3 : Same R (pop3 : Exec σ (Word × Word × Word)) pop3 :=
  .bind (same_pop 3) fun _ => .pure _

lemma same_pop4 : Same R (pop4 : Exec σ (Word × Word × Word × Word)) pop4 :=
  .bind (same_pop 4) fun _ => .pure _

lemma same_operands (n : Nat) : Same R (operands n : Exec σ (Vector Word (n + 1))) (operands n) := by
  refine .bind same_frame fun f => ?_
  rcases f.stack.pop? (n + 1) with _ | ⟨words, stack⟩
  · exact same_halt _
  · exact .bind (same_update _) fun _ => .pure _

lemma same_operand : Same R (operand : Exec σ Word) operand :=
  .bind (same_operands 0) fun _ => .pure _

lemma same_operands2 : Same R (operands2 : Exec σ (Word × Word)) operands2 :=
  .bind (same_operands 1) fun _ => .pure _

lemma same_operands3 : Same R (operands3 : Exec σ (Word × Word × Word)) operands3 :=
  .bind (same_operands 2) fun _ => .pure _

lemma same_push (w : Word) : Same R (push w : Exec σ Unit) (push w) := by
  refine .bind same_frame fun f => ?_
  cases f.stack.push? w with
  | none => exact same_halt _
  | some stack => exact same_update _

lemma same_setTop (w : Word) : Same R (setTop w : Exec σ Unit) (setTop w) := same_update _

lemma same_charge (cost : Nat) : Same R (charge cost : Exec σ Unit) (charge cost) := by
  refine .bind same_frame fun f => ?_
  cases f.gas.pay? cost with
  | none => exact same_halt _
  | some gas => exact same_update _

lemma same_chargePrice (price : Option Nat) :
    Same R (chargePrice price : Exec σ Unit) (chargePrice price) := by
  cases price with
  | none => exact same_halt _
  | some cost => exact same_charge cost

lemma same_count (w : Word) (otherwise : Status) :
    Same R (count w otherwise : Exec σ Nat) (count w otherwise) := by
  unfold count
  cases w.toCount? with
  | none => exact same_halt _
  | some n => exact .pure n

lemma same_reserve (start len : Nat) : Same R (reserve start len : Exec σ Unit) (reserve start len) := by
  refine .bind same_frame fun f => ?_
  rcases f.gas.expand (Count.words (Count.satAdd start len)) with ⟨gas, expansion⟩
  cases expansion with
  | extended => exact same_update _
  | same => exact same_update _
  | outOfGas => exact .bind (same_update _) fun _ => same_halt _

lemma same_readMemory (start : Word) (len : Nat) :
    Same R (readMemory start len : Exec σ Bytes) (readMemory start len) :=
  .ite (.pure _) <| .bind (same_count _ _) fun _ => .bind (same_reserve _ _) fun _ =>
    .bind same_frame fun _ => .pure _

lemma same_copyToMemory (dst srcStart : Word) (len : Nat) (src : Bytes) :
    Same R (copyToMemory dst srcStart len src : Exec σ Unit) (copyToMemory dst srcStart len src) :=
  .ite (.bind (same_count _ _) fun _ => .bind (same_reserve _ _) fun _ => same_update _) (.pure _)

/-! ## Instructions on the frame alone -/

lemma same_unary (op : UnaryOp) : Same R (unary op : Exec σ Unit) (unary op) :=
  .bind same_operand fun _ => same_setTop _

lemma same_binary (op : BinaryOp) : Same R (binary op : Exec σ Unit) (binary op) :=
  .bind same_operands2 fun _ => same_setTop _

lemma same_ternary (op : TernaryOp) : Same R (ternary op : Exec σ Unit) (ternary op) :=
  .bind same_operands3 fun _ => same_setTop _

lemma same_exp : Same R (exp : Exec σ Unit) exp :=
  .bind same_operands2 fun _ => .bind same_frame fun _ => .bind (same_chargePrice _) fun _ =>
    same_setTop _

lemma same_pushFrameField (field : FrameField) :
    Same R (pushFrameField field : Exec σ Unit) (pushFrameField field) :=
  .bind same_frame fun _ => same_push _

lemma same_pushImmediate (size : Nat) :
    Same R (pushImmediate size : Exec σ Unit) (pushImmediate size) :=
  .bind same_frame fun _ => .bind (same_push _) fun _ => same_update _

lemma same_dup (n : Nat) : Same R (dup n : Exec σ Unit) (dup n) := by
  refine .bind same_frame fun f => ?_
  dsimp only
  cases f.stack.dup? n with
  | none => exact same_halt _
  | some stack => exact same_update _

lemma same_swap (n : Nat) : Same R (swap n : Exec σ Unit) (swap n) := by
  refine .bind same_frame fun f => ?_
  cases f.stack.swap? n with
  | none => exact same_halt _
  | some stack => exact same_update _

lemma same_mload : Same R (mload : Exec σ Unit) mload :=
  .bind same_operand fun _ => .bind (same_count _ _) fun _ => .bind (same_reserve _ _) fun _ =>
    .bind same_frame fun _ => same_setTop _

lemma same_mstore : Same R (mstore : Exec σ Unit) mstore :=
  .bind same_pop2 fun _ => .bind (same_count _ _) fun _ => .bind (same_reserve _ _) fun _ =>
    same_update _

lemma same_mstore8 : Same R (mstore8 : Exec σ Unit) mstore8 :=
  .bind same_pop2 fun _ => .bind (same_count _ _) fun _ => .bind (same_reserve _ _) fun _ =>
    same_update _

lemma same_mcopy : Same R (mcopy : Exec σ Unit) mcopy :=
  .bind same_pop3 fun _ => .bind (same_count _ _) fun _ => .bind (same_chargePrice _) fun _ =>
    .ite
      (.bind (same_count _ _) fun _ => .bind (same_count _ _) fun _ =>
        .bind (same_reserve _ _) fun _ => same_update _)
      (.pure _)

lemma same_keccak256 : Same R (keccak256 : Exec σ Unit) keccak256 :=
  .bind same_operands2 fun _ => .bind (same_count _ _) fun _ => .bind (same_chargePrice _) fun _ =>
    .bind (same_readMemory _ _) fun _ => same_setTop _

lemma same_callDataLoad : Same R (callDataLoad : Exec σ Unit) callDataLoad :=
  .bind same_operand fun _ => .bind same_frame fun _ => same_setTop _

lemma same_copyCallData : Same R (copyCallData : Exec σ Unit) copyCallData :=
  .bind same_pop3 fun _ => .bind (same_count _ _) fun _ => .bind (same_chargePrice _) fun _ =>
    .bind same_frame fun _ => same_copyToMemory _ _ _ _

lemma same_copyCode : Same R (copyCode : Exec σ Unit) copyCode :=
  .bind same_pop3 fun _ => .bind (same_count _ _) fun _ => .bind (same_chargePrice _) fun _ =>
    .bind same_frame fun _ => same_copyToMemory _ _ _ _

lemma same_copyReturnData : Same R (copyReturnData : Exec σ Unit) copyReturnData :=
  .bind same_pop3 fun _ => .bind (same_count _ _) fun _ => .bind (same_chargePrice _) fun _ =>
    .bind same_frame fun _ =>
      .ite (.bind (same_halt _) fun _ => same_copyToMemory _ _ _ _) (same_copyToMemory _ _ _ _)

lemma same_copy (source : CopySource) : Same R (copy source : Exec σ Unit) (copy source) := by
  cases source with
  | callData => exact same_copyCallData
  | code => exact same_copyCode
  | returnData => exact same_copyReturnData

lemma same_jumpTo (target : Word) : Same R (jumpTo target : Exec σ Unit) (jumpTo target) :=
  .bind (same_count _ _) fun _ => .bind same_frame fun _ => .ite (same_update _) (same_halt _)

lemma same_jump : Same R (jump : Exec σ Unit) jump := .bind same_pop1 fun _ => same_jumpTo _

lemma same_jumpI : Same R (jumpI : Exec σ Unit) jumpI :=
  .bind same_pop2 fun _ => .ite (same_jumpTo _) (.pure _)

lemma same_jumpSub : Same R (jumpSub : Exec σ Unit) jumpSub :=
  .bind same_pop1 fun _ => .bind (same_count _ _) fun _ => .bind same_frame fun _ =>
    .ite (same_halt _) (.ite (same_halt _) (same_update _))

lemma same_returnSub : Same R (returnSub : Exec σ Unit) returnSub := by
  refine .bind same_frame fun f => ?_
  cases f.returnStack with
  | nil => exact same_halt _
  | cons pc returnStack => exact same_update _

lemma same_finish (status : Status) : Same R (finish status : Exec σ Unit) (finish status) :=
  .bind same_pop2 fun _ => .bind (same_count _ _) fun _ => .bind (same_readMemory _ _) fun _ =>
    .bind (same_update _) fun _ => same_halt _

/-! ## Parts of creations and calls -/

lemma same_salt (len : Nat) : Same R (salt len : Exec σ Word) (salt len) :=
  .bind same_pop1 fun _ => .bind (same_chargePrice _) fun _ => .pure _

lemma same_grantToCreation : Same R (grantToCreation : Exec σ Nat) grantToCreation :=
  .bind same_frame fun _ => .bind (same_active _) fun _ => .bind (same_charge _) fun _ => .pure _

lemma same_settleCreate (response : CreateResponse) :
    Same R (settleCreate response : Exec σ Unit) (settleCreate response) :=
  .bind (same_update _) fun _ =>
    .ite (.bind (same_push _) fun _ => same_update _)
      (.ite (.bind (same_push _) fun _ => same_update _) (.ite (same_halt _) (same_push _)))

lemma same_callWindows : Same R (callWindows : Exec σ (Bytes × Window)) callWindows :=
  .bind same_pop4 fun _ => .bind (same_count _ _) fun _ => .bind (same_readMemory _ _) fun _ =>
    .bind (same_count _ _) fun _ =>
      .ite (.pure _) <| .bind (same_count _ _) fun _ => .bind (same_reserve _ _) fun _ => .pure _

lemma same_callOperands (scheme : CallScheme) :
    Same R (callOperands scheme : Exec σ (Word × Address × Word)) (callOperands scheme) :=
  .ite (.bind same_pop3 fun _ => .pure _) (.bind same_pop2 fun _ => .pure _)

lemma same_settleCall (response : CallResponse) :
    Same R (settleCall response : Exec σ Unit) (settleCall response) :=
  .bind (same_update _) fun _ =>
    .ite (.bind (same_update _) fun _ => .bind (same_update _) fun _ => same_push _)
      (.ite (.bind (same_update _) fun _ => .bind (same_update _) fun _ => same_push _)
        (.ite (same_halt _) (same_push _)))

/-! ## Instructions that ask the host -/

section

variable (h : host.Alike R host')

include h

lemma same_environment : Same R (environment host) (environment host') := by
  rintro ⟨f, s⟩ ⟨_, t⟩ ⟨rfl, hst⟩
  exact ⟨congrArg Except.ok (h.env hst), rfl, hst⟩

lemma same_pushEnvField (field : EnvField) :
    Same R (pushEnvField host field) (pushEnvField host' field) :=
  .bind same_frame fun _ => .bind (same_environment h) fun _ => same_push _

lemma same_blockHash : Same R (blockHash host) (blockHash host') :=
  .bind same_operand fun _ => .bind (same_environment h) fun _ => same_setTop _

lemma same_blobHash : Same R (blobHash host) (blobHash host') :=
  .bind same_operand fun _ => .bind (same_environment h) fun _ => same_setTop _

lemma same_initCode (start : Word) (len : Nat) :
    Same R (initCode host start len) (initCode host' start len) :=
  .ite (.pure _) <| .bind (same_active _) fun _ =>
    .ite
      (.bind (same_environment h) fun _ =>
        .ite (.bind (same_halt _) fun _ => .bind (same_charge _) fun _ => same_readMemory _ _)
          (.bind (same_charge _) fun _ => same_readMemory _ _))
      (same_readMemory _ _)

lemma same_accountField (field : AccountField) :
    Same R (accountField host field) (accountField host' field) := by
  refine .bind same_operand fun w => .bind (same_ask ?_) fun _ => .bind same_frame fun _ =>
    .bind (same_charge _) fun _ => same_setTop _
  cases field with
  | balance => exact h.balance _
  | codeHash => exact h.codeHash _
  | codeSize => exact .bind (h.code _) fun _ => .pure _

lemma same_selfBalance : Same R (selfBalance host) (selfBalance host') :=
  .bind same_frame fun _ => .bind (same_ask (h.balance _)) fun _ => same_push _

lemma same_extCodeCopy : Same R (extCodeCopy host) (extCodeCopy host') :=
  .bind same_pop4 fun _ => .bind (same_ask (h.code _)) fun _ => .bind (same_count _ _) fun _ =>
    .bind same_frame fun _ => .bind (same_chargePrice _) fun _ => same_copyToMemory _ _ _ _

lemma same_selfDestruct : Same R (selfDestruct host) (selfDestruct host') := by
  refine .bind same_forbidStatic fun _ => .bind same_pop1 fun _ => .bind same_frame fun _ =>
    .bind (same_ask (h.selfDestruct _ _)) fun _ => .bind same_frame fun _ => ?_
  exact .ite
    (.bind (same_update _) fun _ => .bind (same_charge _) fun _ => same_halt _)
    (.bind (same_charge _) fun _ => same_halt _)

lemma same_sload : Same R (sload host) (sload host') :=
  .bind same_operand fun _ => .bind same_frame fun _ => .bind (same_ask (h.loadSlot _ _)) fun _ =>
    .bind same_frame fun _ => .bind (same_charge _) fun _ => same_setTop _

lemma same_sstore : Same R (sstore host) (sstore host') := by
  refine .bind same_forbidStatic fun _ => .bind same_pop2 fun _ => .bind same_frame fun f => ?_
  exact .ite
    (.bind (same_halt _) fun _ => .bind (same_ask (h.storeSlot _ _ _)) fun _ =>
      .bind (same_charge _) fun _ => same_update _)
    (.bind (same_ask (h.storeSlot _ _ _)) fun _ => .bind (same_charge _) fun _ => same_update _)

lemma same_tload : Same R (tload host) (tload host') :=
  .bind same_operand fun _ => .bind same_frame fun _ =>
    .bind (same_tell (h.loadTransient _ _)) fun _ => same_setTop _

lemma same_tstore : Same R (tstore host) (tstore host') :=
  .bind same_forbidStatic fun _ => .bind same_pop2 fun _ => .bind same_frame fun _ =>
    same_tell (h.storeTransient _ _ _)

lemma same_log (topics : Nat) : Same R (log host topics) (log host' topics) :=
  .bind same_forbidStatic fun _ => .bind same_pop2 fun _ => .bind (same_count _ _) fun _ =>
    .bind (same_chargePrice _) fun _ => .bind (same_readMemory _ _) fun _ =>
      .bind (same_pop _) fun _ => .bind same_frame fun _ => same_tell (h.log _)

lemma same_create (salted : Bool) : Same R (create host salted) (create host' salted) := by
  refine .bind same_forbidStatic fun _ => .bind same_pop3 fun v => .bind (same_count _ _) fun len =>
    .bind (same_initCode h _ _) fun initCode => ?_
  have hrun (salt? : Option Word) : Same R
      (do
        let gasLimit ← grantToCreation
        let caller := (← frame).address
        settleCreate (← tell (host.create { caller, salt?, value := v.1, initCode, gasLimit })))
      (do
        let gasLimit ← grantToCreation
        let caller := (← frame).address
        settleCreate
          (← tell (host'.create { caller, salt?, value := v.1, initCode, gasLimit }))) :=
    .bind same_grantToCreation fun _ => .bind same_frame fun _ =>
      .bind (same_tell (h.create _)) fun _ => same_settleCreate _
  have hsalt : Same R (some <$> salt len : Exec σ (Option Word)) (some <$> salt len) := by
    rw [map_eq_pure_bind, map_eq_pure_bind]
    exact .bind (same_salt _) fun _ => .pure _
  exact .ite (.bind hsalt fun _ => hrun _) (.bind (.pure _) fun _ => hrun _)

lemma same_callGrant (scheme : CallScheme) (callee : Address) (movesValue : Bool)
    (requested : Nat) : Same R (callGrant host scheme callee movesValue requested)
      (callGrant host' scheme callee movesValue requested) :=
  .bind (same_ask (h.presence _)) fun _ => .bind same_frame fun _ => .bind (same_charge _) fun _ =>
    .ite (.bind same_frame fun _ => .pure _) (.pure _)

lemma same_call (scheme : CallScheme) : Same R (call host scheme) (call host' scheme) := by
  refine .bind (same_callOperands scheme) fun v => ?_
  obtain ⟨gas, callee, value⟩ := v
  have hrun : Same R
      (do
        let windows ← callWindows
        let grant ← callGrant host scheme callee (value != 0) gas.toCount
        charge grant
        let gasLimit := if value != 0 then Count.satAdd grant Gas.callStipend else grant
        let request := callRequest (← frame) scheme callee value windows.1 gasLimit windows.2
        settleCall (← tell (host.call request)))
      (do
        let windows ← callWindows
        let grant ← callGrant host' scheme callee (value != 0) gas.toCount
        charge grant
        let gasLimit := if value != 0 then Count.satAdd grant Gas.callStipend else grant
        let request := callRequest (← frame) scheme callee value windows.1 gasLimit windows.2
        settleCall (← tell (host'.call request))) :=
    .bind same_callWindows fun _ => .bind (same_callGrant h _ _ _ _) fun _ =>
      .bind (same_charge _) fun _ => .bind same_frame fun _ => .bind (same_tell (h.call _)) fun _ =>
        same_settleCall _
  exact .ite (.bind same_frame fun _ => .ite (.bind (same_halt _) fun _ => hrun) hrun) hrun

/-! ## Runs -/

lemma same_instruction (i : Instruction) : Same R (i.run host) (i.run host') := by
  cases i with
  | stop => exact same_halt _
  | unary op => exact same_unary op
  | binary op => exact same_binary op
  | ternary op => exact same_ternary op
  | exp => exact same_exp
  | keccak256 => exact same_keccak256
  | frameField field => exact same_pushFrameField field
  | envField field => exact same_pushEnvField h field
  | accountField field => exact same_accountField h field
  | selfBalance => exact same_selfBalance h
  | callDataLoad => exact same_callDataLoad
  | copy source => exact same_copy source
  | extCodeCopy => exact same_extCodeCopy h
  | blockHash => exact same_blockHash h
  | blobHash => exact same_blobHash h
  | pop => exact .bind (same_pop 1) fun _ => .pure _
  | mload => exact same_mload
  | mstore => exact same_mstore
  | mstore8 => exact same_mstore8
  | mcopy => exact same_mcopy
  | sload => exact same_sload h
  | sstore => exact same_sstore h
  | tload => exact same_tload h
  | tstore => exact same_tstore h
  | jump => exact same_jump
  | jumpI => exact same_jumpI
  | jumpDest => exact .pure _
  | beginSub => exact same_halt _
  | returnSub => exact same_returnSub
  | jumpSub => exact same_jumpSub
  | push size => exact same_pushImmediate size
  | dup depth => exact same_dup depth
  | swap depth => exact same_swap depth
  | log topics => exact same_log h topics
  | create salted => exact same_create h salted
  | call scheme => exact same_call h scheme
  | ret => exact same_finish _
  | revert => exact same_finish _
  | invalid => exact same_halt _
  | selfDestruct => exact same_selfDestruct h

lemma same_next : Same R (next host) (next host') := by
  refine .bind same_frame fun f => ?_
  cases f.instruction? with
  | none => exact same_halt _
  | some i =>
    exact .ite
      (.bind (same_charge _) fun _ => .bind (same_update _) fun _ => same_instruction h i)
      (same_halt _)

end

/-- A program that does the same on both hosts does so when it is performed. -/
lemma Same.perform {p : Exec σ Unit} {p' : Exec τ Unit} (h : Same R p p') {x : Frame × σ}
    {y : Frame × τ} (hxy : Beside R x y) : Beside R (p.perform x) (p'.perform y) := by
  obtain ⟨heq, hframe, hhost⟩ := h x y hxy
  unfold Exec.perform
  rcases hx : p.run x with ⟨r, f, s⟩
  rcases hy : p'.run y with ⟨r', f', t⟩
  rw [hx, hy] at heq hframe hhost
  obtain rfl : r = r' := heq
  obtain rfl : f = f' := hframe
  cases r with
  | error status => exact ⟨rfl, hhost⟩
  | ok a => exact ⟨rfl, hhost⟩

end Exec

namespace Host.Alike

variable {R : σ → τ → Prop} {host : Host σ} {host' : Host τ}

lemma step (h : host.Alike R host') (f : Frame) : Evm.Alike R (host.step f) (host'.step f) := by
  intro s t hst
  obtain ⟨hbefore, hst₁⟩ := h.beforeStep f s t hst
  unfold Host.step
  rcases hs : host.beforeStep f s with ⟨f₁, s₁⟩
  rcases ht : host'.beforeStep f t with ⟨f₁', t₁⟩
  rw [hs, ht] at hbefore hst₁
  obtain rfl : f₁ = f₁' := hbefore
  dsimp only
  split
  · have hnext := (Exec.same_next h).perform (x := (f₁, s₁)) (y := (f₁, t₁)) ⟨rfl, hst₁⟩
    rcases hx : (Exec.next host).perform (f₁, s₁) with ⟨f₂, s₂⟩
    rcases hy : (Exec.next host').perform (f₁, t₁) with ⟨f₂', t₂⟩
    rw [hx, hy] at hnext
    obtain ⟨rfl, hst₂⟩ : f₂ = f₂' ∧ R s₂ t₂ := hnext
    exact h.afterStep f₂ s₂ t₂ hst₂
  · exact ⟨rfl, hst₁⟩

lemma steps (h : host.Alike R host') (fuel : Nat) (f : Frame) :
    Evm.Alike R (host.steps fuel f) (host'.steps fuel f) := by
  intro s t hst
  induction fuel generalizing f s t with
  | zero => exact ⟨rfl, hst⟩
  | succ fuel ih =>
    obtain ⟨heq, hst'⟩ := h.step f s t hst
    unfold Host.steps
    split
    · rcases hs : host.step f s with ⟨f₁, s₁⟩
      rcases ht : host'.step f t with ⟨f₁', t₁⟩
      rw [hs, ht] at heq hst'
      obtain rfl : f₁ = f₁' := heq
      exact ih f₁ s₁ t₁ hst'
    · exact ⟨rfl, hst⟩

/-- Frames run on one host as on the other. -/
theorem run (h : host.Alike R host') (f : Frame) : Evm.Alike R (host.run f) (host'.run f) :=
  h.steps _ f

end Host.Alike

end Evm
