import Std.Data.ExtTreeMap
import Evm.Host

/-!
# The sandbox

A host without a world, to run a single frame: all accounts share one storage and look empty, calls
succeed at once and give their gas back.
-/

namespace Evm

/-- The state of a sandbox. -/
structure Sandbox where
  env : Env := {}
  storage : Std.ExtTreeMap Word Word := ∅
  transient : Std.ExtTreeMap Word Word := ∅
  logs : Array Log := #[]
  /-- The calls that were made. -/
  calls : Array CallRequest := #[]

namespace Sandbox

instance : Inhabited Sandbox := ⟨{}⟩

/-- A slot is cold until it is first used. -/
def loadSlot (index : Word) (s : Sandbox) : Loaded Word × Sandbox :=
  match s.storage[index]? with
  | some value => (⟨value, false⟩, s)
  | none => (⟨0, true⟩, { s with storage := s.storage.insert index 0 })

/-- Sets a slot; the value at the start counts as zero. -/
def storeSlot (index value : Word) (s : Sandbox) : Loaded Gas.SlotWrite × Sandbox :=
  let stored := { s with storage := s.storage.insert index value }
  match s.storage[index]? with
  | some present => (⟨⟨0, present, value⟩, false⟩, stored)
  | none => (⟨⟨0, 0, value⟩, true⟩, stored)

/-- The sandbox as a host. -/
def host : Host Sandbox where
  env := env
  beforeStep f s := (f, s)
  afterStep f s := (f, s)
  presence _ := pure ⟨⟨false, true⟩, false⟩
  balance _ := pure ⟨0, false⟩
  code _ := pure ⟨.empty, false⟩
  codeHash _ := pure ⟨emptyHash, false⟩
  loadSlot _ index := liftM (m := StateM Sandbox) (loadSlot index)
  storeSlot _ index value := liftM (m := StateM Sandbox) (storeSlot index value)
  loadTransient _ index := fun s => (s.transient.getD index 0, s)
  storeTransient _ index value := modify fun s =>
    { s with transient := s.transient.insert index value }
  log entry := modify fun s => { s with logs := s.logs.push entry }
  selfDestruct _ _ := pure ⟨⟨false, false, false⟩, false⟩
  call r := fun s =>
    (⟨.idle .stop r.gasLimit, r.out⟩, { s with calls := s.calls.push r })
  create r := pure ⟨.idle .ret r.gasLimit, some (r.newAddress 0)⟩

end Sandbox

end Evm
