import Evm.Execution.Basic

/-!
# Calls and creations

Instructions that start another frame. The calling frame pays for the gas that it hands down and
gets back what is left of it.
-/

namespace Evm

/-- All but a 64th of some gas. -/
def Gas.allButOne64th (gas : Nat) : Nat := gas - gas / 64

namespace Exec

variable {σ : Type}

/-! ## Creations -/

/-- The init code in memory, its size checked and paid for. -/
def initCode (host : Host σ) (start : Word) (len : Nat) : Exec σ Bytes := do
  if len = 0 then return #[]
  else
    if ← active .eip3860 then
      if (← environment host).config.initCodeLimit < len then halt .initCodeTooLarge
      charge (Gas.initCode len)
    readMemory start len

/-- The salt of a salted creation, the hashing of the init code paid for. -/
def salt (len : Nat) : Exec σ Word := do
  let salt ← pop1
  chargePrice (Gas.saltedCreate len)
  return salt

/-- Takes the gas that a creation gets out of the frame. -/
def grantToCreation : Exec σ Nat := do
  let remaining := (← frame).gas.remaining
  let grant := if ← active .eip150 then Gas.allButOne64th remaining else remaining
  charge grant
  return grant

/-- Goes on after a creation. -/
def settleCreate (response : CreateResponse) : Exec σ Unit := do
  let outcome := response.outcome
  let returnData := if outcome.status.isRevert then outcome.output else #[]
  update fun f => { f with returnData }
  if outcome.status.isOk then
    push ((response.address?.map Word.ofAddress).getD 0)
    update fun f => { f with
      gas := (f.gas.giveBack outcome.gas.remaining).addRefund outcome.gas.refunded }
  else if outcome.status.isRevert then
    push 0
    update fun f => { f with gas := f.gas.giveBack outcome.gas.remaining }
  else if outcome.status.isFatal then halt .fatal
  else push 0

/-- Creates a contract. -/
def create (host : Host σ) (salted : Bool) : Exec σ Unit := do
  forbidStatic
  let (value, start, len) ← pop3
  let len ← count len
  let initCode ← initCode host start len
  let salt? ← if salted then some <$> salt len else pure none
  let gasLimit ← grantToCreation
  let caller := (← frame).address
  settleCreate (← tell (host.create { caller, salt?, value, initCode, gasLimit }))

/-! ## Calls -/

/-- Takes the memory windows of a call from the stack and makes them usable; gives the call data and
where the output goes. -/
def callWindows : Exec σ (Bytes × Window) := do
  let (inputStart, inputLen, outStart, outLen) ← pop4
  let input ← readMemory inputStart (← count inputLen)
  let size ← count outLen
  if size = 0 then return (input, {})
  else
    let start ← count outStart
    reserve start size
    return (input, { start, size })

/-- Pays for a call apart from its gas, and gives the gas that it may get. Only a plain call can
bring an account into existence. -/
def callGrant (host : Host σ) (scheme : CallScheme) (callee : Address) (movesValue : Bool)
    (requested : Nat) : Exec σ Nat := do
  let account ← ask (host.presence callee)
  let isCall := scheme == .call
  let features := (← frame).features
  charge (Gas.call features movesValue account.isCold (isCall && !account.value.exists_)
    (isCall && account.value.isEmpty))
  if features.has .eip150 then
    return Nat.min (Gas.allButOne64th (← frame).gas.remaining) requested
  else return requested

/-- The call that an instruction makes of its operands. -/
def callRequest (f : Frame) (scheme : CallScheme) (callee : Address) (value : Word) (input : Bytes)
    (gasLimit : Nat) (out : Window) : CallRequest :=
  match scheme with
  | .call =>
    { scheme, caller := f.address, target := callee, codeAddress := callee, input, gasLimit,
      value := .transfer value, isStatic := f.isStatic, out }
  | .callCode =>
    { scheme, caller := f.address, target := f.address, codeAddress := callee, input, gasLimit,
      value := .transfer value, isStatic := f.isStatic, out }
  | .delegateCall =>
    { scheme, caller := f.caller, target := f.address, codeAddress := callee, input, gasLimit,
      value := .apparent f.value, isStatic := f.isStatic, out }
  | .staticCall =>
    { scheme, caller := f.address, target := callee, codeAddress := callee, input, gasLimit,
      value := .transfer 0, isStatic := true, out }

/-- Writes the output of a call to memory as far as it fits the window. -/
def storeOutput (out : Window) (output : Bytes) : Exec σ Unit :=
  update fun f => { f with
    memory := f.memory.write out.start (output.extract 0 (Nat.min out.size output.size)) }

/-- Goes on after a call. -/
def settleCall (response : CallResponse) : Exec σ Unit := do
  let outcome := response.outcome
  update fun f => { f with returnData := outcome.output }
  if outcome.status.isOk then
    update fun f => { f with
      gas := (f.gas.giveBack outcome.gas.remaining).addRefund outcome.gas.refunded }
    storeOutput response.out outcome.output
    push 1
  else if outcome.status.isRevert then
    update fun f => { f with gas := f.gas.giveBack outcome.gas.remaining }
    storeOutput response.out outcome.output
    push 0
  else if outcome.status.isFatal then halt .fatal
  else push 0

/-- Whether the scheme takes a value from the stack. -/
def takesValue : CallScheme → Bool
  | .call | .callCode => true
  | .delegateCall | .staticCall => false

/-- The operands of a call that come first: gas, address and value. -/
def callOperands (scheme : CallScheme) : Exec σ (Word × Address × Word) := do
  if takesValue scheme then
    let (gas, callee, value) ← pop3
    return (gas, callee.toAddress, value)
  else
    let (gas, callee) ← pop2
    return (gas, callee.toAddress, 0)

/-- Calls an account. -/
def call (host : Host σ) (scheme : CallScheme) : Exec σ Unit := do
  let (gas, callee, value) ← callOperands scheme
  let movesValue := value != 0
  if scheme == .call && movesValue then
    if (← frame).isStatic then halt .valueCallInStatic
  let (input, out) ← callWindows
  let grant ← callGrant host scheme callee movesValue gas.toCount
  charge grant
  let gasLimit := if movesValue then Count.satAdd grant Gas.callStipend else grant
  let request := callRequest (← frame) scheme callee value input gasLimit out
  settleCall (← tell (host.call request))

end Exec

end Evm
