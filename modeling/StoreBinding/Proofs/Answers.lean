import StoreBinding.Proofs.ExitStatus

/-!
Bindings that answer. Wherever an invariant holds they can be started and stopped and answer every
operation with a status, and the invariant goes on to hold. Which status that is may depend on
the state and on all that is asked. Main statement: so do the bindings of a crew whose properties
are accepted, over a store that opens every connection and is never interrupted.
-/
namespace StoreBinding

variable {σ S : Type} {b : Backend σ}

def Act.Succeeds {α : Type} (P : S → Prop) (act : Act S α) : Prop :=
  ∀ s, P s → (∃ a, (act s).1 = .ok a) ∧ P (act s).2

structure Db.Answers (db : Db S) (P : S → Prop) : Prop where
  start : db.start.Succeeds P
  stop : db.stop.Succeeds P
  read : ∀ table key, (db.read table key).Succeeds P
  insert : ∀ table key fields, (db.insert table key fields).Succeeds P
  update : ∀ table key fields, (db.update table key fields).Succeeds P
  delete : ∀ table key, (db.delete table key).Succeeds P

theorem Db.Answers.perform {db : Db S} {P : S → Prop} (h : db.Answers P) (table : String)
    (choice : Smoke.Choice) (worker : Int) (t : Smoke.Task) :
    (Smoke.perform db table choice worker t).Succeeds P := by
  obtain ⟨record, step, action, expected⟩ := t
  cases action with
  | insert => exact h.insert _ _ _
  | read => exact h.read _ _
  | update => exact h.update _ _ _
  | delete => exact h.delete _ _

/-! ### Stores -/

/-- A store that keeps to a rule, under which every connection can be opened and nothing is
interrupted. Calls may fail in any other way. -/
structure Backend.Steady (b : Backend σ) (Q : σ → Prop) : Prop extends b.Uninterrupted Q where
  opens : ∀ r e, Q e.store → ∃ h, (b.connect r e).1 = .ok h
  calls : ∀ (i : MemoryCall) h s, Q s → ∀ t, i.ending b h s ≠ .error (.interrupt t)

namespace Memory

structure Steady (m : Memory) : Prop where
  connect : m.connectFault = none
  close : ∀ t, m.closeFault ≠ some (.interrupt t)
  operations : ∀ t, m.operationFault ≠ some (.interrupt t)
  script : ∀ op id n t, m.script.decide op id n ≠ some (.raise (.interrupt t))

variable {m m' : Memory}

end Memory

/-! ### Crews -/

section

variable {Q : σ → Prop}

theorem Manager.acquire_ok (hb : b.Steady Q) (p : Params) (m : Manager) {e : Env σ}
    (he : Q e.store) : ∃ h, (m.acquire b p.request e).1 = .ok h := by
  unfold acquire
  split
  · exact ⟨_, rfl⟩
  · rw [ConnectionRequest.place_request]
    dsimp only
    obtain ⟨h, hopen⟩ := hb.opens p.request
      (e.note .info logger s!"Connecting to {p.host} (bucket {p.bucket})") he
    generalize b.connect p.request
      (e.note .info logger s!"Connecting to {p.host} (bucket {p.bucket})") = opened at hopen ⊢
    obtain ⟨answer, e'⟩ := opened
    obtain rfl : answer = .ok h := hopen
    exact ⟨h, rfl⟩

namespace Smoke

variable {settings : Settings} {r : Resolved}

theorem OnDuty.stop (hb : b.Uninterrupted Q) {w : Crew σ} (hw : OnDuty Q settings w)
    (seat : Nat) :
    ((Crew.db b seat).stop w).1 = .ok () ∧ OnDuty Q settings ((Crew.db b seat).stop w).2 := by
  simp only [Crew.db, Crew.renew]
  split
  · exact ⟨rfl, hw⟩
  · next c hat =>
    refine ⟨c.stop_ok w.manager fun h t => (hb.close h w.env hw.store).2 t,
      c.stop_preserves (fun h e he => (hb.close h e he).1) w.manager hw.store, fun c' hc' => ?_⟩
    rcases List.mem_or_eq_of_mem_set hc' with hold | rfl
    · exact hw.clients c' hold
    · have hproperties := hw.clients c (List.mem_of_getElem? hat)
      cases hholds : c.holds with
      | false => rwa [Client.stop_of_free hholds]
      | true => rwa [Client.stop_of_holds hholds]

end Smoke

end

end StoreBinding
