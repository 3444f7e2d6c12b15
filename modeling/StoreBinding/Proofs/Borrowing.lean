import StoreBinding.Proofs.Calls
import StoreBinding.Proofs.References

/-!
Calls of bindings that hold no reference. A binding looks for a connection at its manager and
not at its own reference. Its calls are refused while nobody else holds the manager, and as long
as it has no configuration; a binding that got one from an earlier start makes use of a
connection that another binding keeps open. Main statement: exactly these calls get through.
-/
namespace StoreBinding

structure Refused (call : Call) (w : World Memory) (outcome : Except Halt Reply × World Memory) :
    Prop where
  reply : outcome.1 = .ok call.refusal
  calls : outcome.2.env.store.calls = w.env.store.calls
  documents : outcome.2.env.store.documents = w.env.store.documents

namespace Chronicle

open Lease

variable {σ : Type} {b : Backend σ}

/-- A call that another binding makes possible: the binding has a configuration from an earlier
start, and another one holds a reference to the same manager. -/
structure Borrows (c : Chronicle σ) (id : String) (m : Member) (call : Call) : Prop where
  resolved : m.client.resolved.isSome
  encodable : call.IsEncodable
  lender : ∃ l ∈ c.leases, l.manager = m.manager ∧ l.held = true ∧ newest? id c.leases ≠ some l

/-- Among bindings without a reference, those whose calls reach the store are the borrowers. -/
theorem Sound.borrows_iff {a : b.Account} {c : Chronicle σ} (h : Sound a c) {id : String}
    (free : ¬ c.Held id) (m : Member) (call : Call) :
    c.Borrows id m call ↔
      (call.issued? m.client (c.world.managers.ask m.manager)).isSome := by
  have hconnected := (h.balanced m.manager).connected
  rw [Manager.isConnected, holders_pos_iff] at hconnected
  rw [Call.isSome_issued?_iff, hconnected]
  constructor
  · rintro ⟨hresolved, hencodable, l, hmem, hmanager, hheld, -⟩
    exact ⟨⟨l, hmem, hmanager, hheld⟩, hresolved, hencodable⟩
  · rintro ⟨⟨l, hmem, hmanager, hheld⟩, hresolved, hencodable⟩
    refine ⟨hresolved, hencodable, l, hmem, hmanager, hheld, fun hnewest => ?_⟩
    exact free ⟨l, hnewest, hheld⟩

/-- A call of a binding that holds no reference is refused unless it borrows the connection of
another one. It then leaves the whole world as it is, and otherwise makes exactly one call on
the store. -/
theorem refused_iff {c : Chronicle Memory} (hc : Reachable Memory.account c) {id : String}
    {m : Member} (hm : c.world.members.get? id = some m) (free : ¬ c.Held id) (call : Call) :
    (Refused call c.world (c.world.step Memory.backend (call.step id)) ↔
      ¬ c.Borrows id m call) ∧
    (¬ c.Borrows id m call →
      c.world.step Memory.backend (call.step id) = (.ok call.refusal, c.world)) ∧
    (c.Borrows id m call → ∃ issued,
      call.issued? m.client (c.world.managers.ask m.manager) = some issued ∧
      (c.world.step Memory.backend (call.step id)).2.env.store.calls =
        c.world.env.store.calls.push issued) := by
  have hborrows := (Sound.of_reachable hc).borrows_iff free m call
  have hrefused : ¬ c.Borrows id m call →
      c.world.step Memory.backend (call.step id) = (.ok call.refusal, c.world) := by
    intro hnot
    rw [hborrows, Option.not_isSome_iff_eq_none] at hnot
    rw [World.step_call hm, Call.run_of_refused hnot]
  have hissued : c.Borrows id m call → ∃ issued,
      call.issued? m.client (c.world.managers.ask m.manager) = some issued ∧
      (c.world.step Memory.backend (call.step id)).2.env.store.calls =
        c.world.env.store.calls.push issued := by
    intro hb
    obtain ⟨issued, h⟩ := Option.isSome_iff_exists.mp (hborrows.mp hb)
    refine ⟨issued, h, ?_⟩
    rw [World.step_call hm]
    exact (Call.handled_run h _).calls
  refine ⟨⟨fun href hb => ?_, fun hnot => ?_⟩, hrefused, hissued⟩
  · -- one more call is on record than a refusal leaves
    obtain ⟨issued, -, hcalls⟩ := hissued hb
    rw [href.calls] at hcalls
    have hsize := congrArg Array.size hcalls
    rw [Array.size_push] at hsize
    omega
  · rw [hrefused hnot]
    exact ⟨rfl, rfl, rfl⟩

def lending : Chronicle Memory :=
  (init { store := {} }).run Memory.account
    [.create "a" "m" ∅, .create "b" "m" ∅, .create "c" "m" ∅, .start "a", .start "b", .stop "a"]

theorem reachable_lending : Reachable Memory.account lending :=
  (Reachable.init _).run (by decide)

def lendingLease (id : String) (held : Bool) : Lease := { binding := id, manager := "m", held }

theorem not_held_lending {id : String}
    (h : newest? id lending.leases = some (lendingLease id false)) : ¬ lending.Held id := by
  rintro ⟨l, hl, hheld⟩
  rw [h] at hl
  cases hl
  cases hheld

/-- A binding that was never started is refused, though another one keeps the connection open. -/
theorem refused_iff_lending :
    Reachable Memory.account lending ∧ ¬ lending.Held "c" ∧
    ∃ m, lending.world.members.get? "c" = some m ∧
      Refused (.read "t" "k" []) lending.world
        (lending.world.step Memory.backend (Call.step "c" (.read "t" "k" []))) := by
  have free : ¬ lending.Held "c" := not_held_lending rfl
  have hiff := (refused_iff reachable_lending rfl free (.read "t" "k" [])).1
  refine ⟨reachable_lending, free, _, rfl, hiff.mpr fun hb => ?_⟩
  exact absurd hb.resolved (by decide)

/-- The binding that has given its reference back still writes to the store. -/
theorem not_refused_lending :
    Reachable Memory.account lending ∧ ¬ lending.Held "a" ∧
    (lending.world.step Memory.backend (Call.step "a" (.insert "t" "k" (some ∅)))).1 =
      .ok (.status .ok) ∧
    (lending.world.step Memory.backend
      (Call.step "a" (.insert "t" "k" (some ∅)))).2.env.store.documents.contains "t:k" = true ∧
    ¬ Refused (.insert "t" "k" (some ∅)) lending.world
      (lending.world.step Memory.backend (Call.step "a" (.insert "t" "k" (some ∅)))) := by
  refine ⟨reachable_lending, not_held_lending rfl, rfl, rfl, fun href => ?_⟩
  have hreply : (.ok (.status .ok) : Except Halt Reply) = .ok (.status .error) := href.reply
  cases hreply

end Chronicle

end StoreBinding
