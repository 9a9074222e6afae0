import Evm.Host

/-!
# Execution

Instructions are programs on a frame and the state of its host. They are put together from a few
primitive steps: taking words from the stack, paying gas, growing memory, asking the host. A step
that fails halts the frame and leaves everything done before it in place.
-/

namespace Evm

/-- Programs on a frame and a host of state `σ`, which may halt the frame. -/
abbrev Exec (σ : Type) := ExceptT Status (StateM (Frame × σ))

namespace Exec

variable {σ : Type}

/-! ## The frame -/

/-- Ends the frame. -/
def halt {α : Type} (status : Status) : Exec σ α := throw status

/-- The frame as it is now. -/
def frame : Exec σ Frame := do
  return (← get).1

/-- Changes the frame. -/
def update (f : Frame → Frame) : Exec σ Unit := modify fun (frame, s) => (f frame, s)

/-- Whether a proposal is active. -/
def active (eip : Eip) : Exec σ Bool := do
  return (← frame).features.has eip

/-- Halts static frames. -/
def forbidStatic : Exec σ Unit := do
  if (← frame).isStatic then halt .stateChangeInStatic

/-! ## The stack -/

/-- Takes the `n` topmost words, the top first. -/
def pop (n : Nat) : Exec σ (Vector Word n) := do
  match (← frame).stack.pop? n with
  | none => halt .stackUnderflow
  | some (words, stack) =>
    update fun f => { f with stack }
    return words

/-- Takes the topmost word. -/
def pop1 : Exec σ Word := do
  let v ← pop 1
  return v[0]

/-- Takes two words, the top first. -/
def pop2 : Exec σ (Word × Word) := do
  let v ← pop 2
  return (v[0], v[1])

/-- Takes three words, the top first. -/
def pop3 : Exec σ (Word × Word × Word) := do
  let v ← pop 3
  return (v[0], v[1], v[2])

/-- Takes four words, the top first. -/
def pop4 : Exec σ (Word × Word × Word × Word) := do
  let v ← pop 4
  return (v[0], v[1], v[2], v[3])

/-- Takes the `n` topmost words and looks at the next one, which stays to be replaced. -/
def operands (n : Nat) : Exec σ (Vector Word (n + 1)) := do
  match (← frame).stack.pop? (n + 1) with
  | none => halt .stackUnderflow
  | some (words, _) =>
    update fun f => { f with stack := f.stack.drop n }
    return words

/-- Looks at the topmost word. -/
def operand : Exec σ Word := do
  let v ← operands 0
  return v[0]

/-- Takes a word and looks at the next one. -/
def operands2 : Exec σ (Word × Word) := do
  let v ← operands 1
  return (v[0], v[1])

/-- Takes two words and looks at the next one. -/
def operands3 : Exec σ (Word × Word × Word) := do
  let v ← operands 2
  return (v[0], v[1], v[2])

/-- Puts a word on the stack. -/
def push (w : Word) : Exec σ Unit := do
  match (← frame).stack.push? w with
  | none => halt .stackOverflow
  | some stack => update fun f => { f with stack }

/-- Puts a word in place of the topmost one. -/
def setTop (w : Word) : Exec σ Unit := update fun f => { f with stack := f.stack.setTop w }

/-! ## Gas and memory -/

/-- Pays gas. -/
def charge (cost : Nat) : Exec σ Unit := do
  match (← frame).gas.pay? cost with
  | none => halt .outOfGas
  | some gas => update fun f => { f with gas }

/-- Pays a price that may be beyond any amount of gas. -/
def chargePrice : Option Nat → Exec σ Unit
  | none => halt .outOfGas
  | some cost => charge cost

/-- The count that a word stands for. -/
def count (w : Word) (otherwise : Status := .invalidOperand) : Exec σ Nat :=
  match w.toCount? with
  | none => halt otherwise
  | some n => return n

/-- Makes the `len` bytes of memory from `start` on usable and pays for them. -/
def reserve (start len : Nat) : Exec σ Unit := do
  let words := Count.words (Count.satAdd start len)
  match (← frame).gas.expand words with
  | (gas, .extended) => update fun f => { f with gas, memory := f.memory.grow (words * 32) }
  | (gas, .same) => update fun f => { f with gas }
  | (gas, .outOfGas) =>
    update fun f => { f with gas }
    halt .memoryOutOfGas

/-- The `len` bytes of memory from `start` on. If there are none, the start does not matter. -/
def readMemory (start : Word) (len : Nat) : Exec σ Bytes := do
  if len = 0 then return #[]
  else
    let start ← count start
    reserve start len
    return (← frame).memory.read start len

/-- Writes `len` bytes of `src`, which goes on with zero bytes, to memory. If there are none,
neither start matters. -/
def copyToMemory (dst srcStart : Word) (len : Nat) (src : Bytes) : Exec σ Unit := do
  if len ≠ 0 then
    let dst ← count dst
    reserve dst len
    update fun f => { f with memory := f.memory.writeWindow dst src srcStart.toCount len }

/-! ## The host -/

/-- Does something on the host that cannot fail. -/
def tell {α : Type} (op : StateM σ α) : Exec σ α :=
  modifyGet fun (frame, s) =>
    let (a, s) := op s
    (a, (frame, s))

/-- Does something on the host; if it fails, so does the frame for good. -/
def ask {α : Type} (op : HostM σ α) : Exec σ α := do
  match ← tell op.run with
  | none => halt .fatal
  | some a => return a

/-- The environment. -/
def environment (host : Host σ) : Exec σ Env := do
  return host.env (← get).2

end Exec

end Evm
