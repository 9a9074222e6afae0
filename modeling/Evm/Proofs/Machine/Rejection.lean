import Evm.Proofs.Machine.Pairs

/-!
# Rejected transactions

A transaction that fails leaves nothing behind, whatever it has come to. What was pending is pending
as before, the store is the same, and no later requests tell the difference
(`Machine.transact_failed`). All this rests on the store taking every batch. The checkpoint of a
transaction is committed before its effects are written, and a store that refuses them then leaves
the world with effects that are neither pending nor stored (`Machine.transact_refused`).
-/

namespace Evm

open World (Twins)

namespace World

variable {budget : Budget} {w w₁ w₁' : World}

/-- Without open checkpoints, worlds that have the same pending over the same store are twins. -/
lemma SamePending.twins (h : w.SamePending w₁) (hstore : w₁.store = w.store) (hclosed : w.Closed)
    (hclosed₁ : w₁.Closed) (hw : Twins budget w w) (hw₁ : Twins budget w₁ w₁') :
    Twins budget w w₁ where
  store := hstore.symm
  accounts := ⟨h.accounts.symm, hclosed.accounts.trans hclosed₁.accounts.symm⟩
  storage := ⟨h.storage.symm, hclosed.storage.trans hclosed₁.storage.symm⟩
  code := ⟨h.code.symm, hclosed.code.trans hclosed₁.code.symm⟩
  incarnations := ⟨h.incarnations.symm, hclosed.incarnations.trans hclosed₁.incarnations.symm⟩
  orderly := hw.orderly
  mirrors := hw.mirrors
  mirrors' := hw₁.mirrors

end World

namespace Machine

variable {m m' : Machine Unit} {tx : Transaction} {e : Failure}

/-- A transaction that fails has not come to its flush. -/
lemma runTransaction_failed {used left : Nat} {hused : used ≤ left} {hleft : left < 2 ^ 64}
    (hraised : used + 1 + 1 ≤ left)
    (hworld : Twins (.evenly used left hused hleft) m.context.world m.context.world)
    (hclosed : m.context.world.Closed)
    (hrun : (runTransaction .silent).run m = (.error e, m')) :
    m.context.Within m'.context ∧
      Twins (.evenly (used + 1 + 1) left hraised hleft) m.context.world m'.context.world := by
  have hm : m.Alike (Twins (.evenly used left hused hleft)) (fun _ _ => True) m.depth m :=
    ⟨⟨rfl, hworld, rfl, rfl⟩, trivial, rfl, rfl, rfl, rfl⟩
  have hends := runTransaction_twins hraised hm hclosed
  rw [hrun] at hends
  cases hends with
  | rejected _ _ alike within same =>
    have hclosed' : m'.context.world.Closed := (hclosed.open.continues within.world).closed
    refine ⟨within, same.twins within.world.store hclosed hclosed' ?_ alike.context.world⟩
    exact hworld.mono (fun _ => used.le_add_right 2) fun _ => le_rfl

/-- A transaction that fails changes nothing, unless the store does not take what is written. -/
theorem transact_failed (hworld : m.context.world.Reachable) (hclosed : m.context.world.Closed)
    (hrun : (transact .silent tx).run m = (.error e, m')) :
    m.context.world.SamePending m'.context.world ∧
      m'.context.world.store = m.context.world.store ∧
      (∀ requests : List World.Request, requests.length < 2 ^ 62 →
        (World.serveAll requests m'.context.world).1 =
          (World.serveAll requests m.context.world).1) ∧
      m'.context.Lockstep 0 := by
  obtain ⟨used, left, hused, hleft, ⟨htwins, -⟩, hroom⟩ := hworld.like
  have hraised : used + 1 + 1 ≤ left := by omega
  rw [transact_run] at hrun
  rcases hbody : (runTransaction .silent).run (m.withTransaction tx) with ⟨r, m₁⟩
  rw [hbody] at hrun
  cases r with
  | ok receipt => cases hrun
  | error e₁ =>
    cases hrun
    obtain ⟨hwithin, hw⟩ := runTransaction_failed (m := m.withTransaction tx) hraised htwins hclosed hbody
    have hopen : m₁.context.world.Open 0 := hclosed.open.continues hwithin.world
    refine ⟨⟨hw.accounts.dirty.symm, hw.storage.dirty.symm, hw.code.dirty.symm,
      hw.incarnations.dirty.symm⟩, hw.store.symm, fun requests hlength => ?_, hopen, rfl⟩
    have hlike : World.Like (.evenly (used + 1 + 1) left hraised hleft) m.context.world
        m₁.context.world := ⟨hw, 0, hclosed.open⟩
    have hfew : used + 1 + 1 + requests.length + 0 ≤ left := by omega
    exact (hlike.serveAll_evenly hfew).1.symm

/-- A store with a record that does not decode. -/
def garbledRecord : Std.ExtTreeMap Key Bytes := .insert ∅ (StoreKey.account 0x100) #[0xff]

/-- A machine over that store, on which the account 1 can pay for gas. -/
def garbled : Machine Unit :=
  let record : Account := { balance := 1000000 }
  start (.ofWorld {} ((World.serve (.putAccount 1 record)).run
    (.ofStore { entries := garbledRecord } (.recent 1))).2) ()

/-- A payment to an account that cannot be read costs nothing. -/
theorem transact_failed_garbled :
    ∃ e m', (transact .silent payment).run garbled = (.error e, m') ∧
      (∀ requests : List World.Request, requests.length < 2 ^ 62 →
        (World.serveAll requests m'.context.world).1 =
          (World.serveAll requests garbled.context.world).1) := by
  have hworld : garbled.context.world.Reachable :=
    ⟨garbledRecord, .recent 1, [.putAccount 1 { balance := 1000000 }], by decide, rfl⟩
  have hfails : ((transact .silent payment).run garbled).1.toOption.isNone = true := by
    decide +kernel
  rcases hrun : (transact .silent payment).run garbled with ⟨r, m'⟩
  rw [hrun] at hfails
  cases r with
  | ok receipt => cases hfails
  | error e =>
    exact ⟨e, m', rfl, (transact_failed hworld ⟨rfl, rfl, rfl, rfl⟩ hrun).2.2.1⟩

/-- A machine on which the account 1 can pay for gas, over a store that takes no batch. -/
def unwritable : Machine Unit :=
  let store : Store := { faults := { batch := true } }
  let record : Account := { balance := 1000000 }
  start (.ofWorld {} ((World.serve (.putAccount 1 record)).run (.ofStore store .ordered)).2) ()

/-- If the store refuses what a transaction writes, the transaction fails, but it is not undone: who
was to get its value has it, and the pending records are pending no more. -/
theorem transact_refused :
    let refused := (transact .silent payment).run unwritable
    unwritable.context.world.Closed ∧ refused.1.toOption.isNone = true ∧
      World.answer (World.account 0x100) unwritable.context.world = .ok none ∧
      World.answer (World.account 0x100) refused.2.context.world = .ok (some { balance := 5 }) ∧
      ¬unwritable.context.world.SamePending refused.2.context.world := by
  intro refused
  have hbefore : unwritable.context.world.accounts.dirty[(1 : Address)]?.isSome = true := by
    decide +kernel
  have hafter : refused.2.context.world.accounts.dirty[(1 : Address)]?.isSome = false := by
    decide +kernel
  refine ⟨⟨rfl, rfl, rfl, rfl⟩, ?_, ?_, ?_, fun h => ?_⟩
  · decide +kernel
  · decide +kernel
  · decide +kernel
  · rw [h.accounts, hbefore] at hafter
    cases hafter

end Machine

end Evm
