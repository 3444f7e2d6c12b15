import StoreBinding.Proofs.Clusters
import StoreBinding.Proofs.Locality

/-!
Interrupts. A store may be interrupted in calls on documents only, as long as it keeps to a rule
that rules interrupts out while connections are opened and closed. Main statements: the in-memory
store and the cluster service keep to such rules, and of all that can come of its call on the store
nothing but an interrupt comes out of a call.
-/
namespace StoreBinding

variable {σ : Type} {b : Backend σ}

section

variable {α : Type}

theorem ok_ne_interrupt (a : α) (t : String) :
    (.ok a : Except Halt α) ≠ .error (.interrupt t) := by
  intro h
  cases h

theorem failure_ne_interrupt (f : Failure) (t : String) :
    (.error (.failure f) : Except Halt α) ≠ .error (.interrupt t) := by
  intro h
  cases h

end

/-- A store that keeps to a rule, under which opening and closing can fail but are never
interrupted. -/
structure Backend.Uninterrupted (b : Backend σ) (Q : σ → Prop) : Prop where
  connect : ∀ r e, Q e.store →
    Q (b.connect r e).2.store ∧ ∀ t, (b.connect r e).1 ≠ .error (.interrupt t)
  close : ∀ h e, Q e.store → Q (b.close h e).2.store ∧ ∀ t, (b.close h e).1 ≠ .error (.interrupt t)
  operations : b.Preserves Q

theorem Memory.close_ne_interrupt {e : Env Memory}
    (h : ∀ t, e.store.closeFault ≠ some (.interrupt t)) (handle : Handle) (t : String) :
    (Memory.close handle e).1 ≠ .error (.interrupt t) := by
  rw [Memory.close_eq]
  cases hfault : e.store.closeFault with
  | none => exact ok_ne_interrupt _ t
  | some x =>
    intro hx
    cases hx
    exact h t hfault

/-- What no call on a document changes is preserved by operations. -/
theorem Memory.preserves_of_handled {Q : Memory → Prop}
    (h : ∀ {call m m'}, Memory.Handled call m m' → Q m → Q m') : Memory.backend.Preserves Q :=
  ⟨fun _ id t m => h (Memory.handled_get id t m),
    fun _ id c o m => h (Memory.handled_insert id c o m),
    fun _ id c o m => h (Memory.handled_replace id c o m),
    fun _ id o m => h (Memory.handled_remove id o m)⟩

/-- The in-memory store, with faults for its connections that are no interrupts. -/
theorem Memory.uninterrupted :
    Memory.backend.Uninterrupted fun m =>
      (∀ t, m.connectFault ≠ some (.interrupt t)) ∧ ∀ t, m.closeFault ≠ some (.interrupt t) where
  connect r e h := by
    simp only [Memory.backend, Memory.connect]
    split
    · next x hfault =>
      refine ⟨h, fun t heq => ?_⟩
      cases heq
      exact h.1 t hfault
    · exact ⟨h, ok_ne_interrupt _⟩
  close handle e h := by
    refine ⟨?_, Memory.close_ne_interrupt h.2 handle⟩
    simp only [Memory.backend, Memory.close_eq]
    exact h
  operations := Memory.preserves_of_handled fun hhandled h => by
    rw [hhandled.connectFault, hhandled.closeFault]
    exact h

section Service

variable {s s' : Service}

theorem Place.cluster_ne_request (op : Operation) : cluster ≠ .request op := by
  intro h
  cases h

theorem Place.close_ne_request (op : Operation) : close ≠ .request op := by
  intro h
  cases h

theorem Service.Uninterrupted.congr (h : s.Uninterrupted) (hfaults : s'.faults = s.faults) :
    s'.Uninterrupted := by
  intro place x hplace hfault
  rw [hfaults] at hfault
  exact h place x hplace hfault

/-- Nothing that stands at a place outside of requests interrupts. -/
theorem Service.Uninterrupted.fate_ne (h : s.Uninterrupted) (place : Place)
    (hplace : ∀ op, place ≠ .request op) (t : String) : s.fate place ≠ .error (.interrupt t) := by
  intro hfate
  obtain ⟨f, hf⟩ := h place _ hplace (Service.fate_eq_error_iff.mp hfate)
  cases hf

namespace Cluster

/-- Opening a cluster and its collection fails without an interrupt, whatever is asked for. -/
theorem openWith_uninterrupted (h : s.Uninterrupted) (address : Value) (a : Access)
    (r : ConnectionRequest) :
    (openWith address a r s).2.Uninterrupted ∧
      ∀ t, (openWith address a r s).1 ≠ .error (.interrupt t) := by
  have hopen : (Service.openCluster address a.who a.kvTimeout r.enableMutationTokens s).2.faults =
        s.faults ∧
      ∀ t, (Service.openCluster address a.who a.kvTimeout r.enableMutationTokens s).1 ≠
        .error (.interrupt t) := by
    unfold Service.openCluster
    split
    · exact ⟨rfl, failure_ne_interrupt _⟩
    · rw [Service.attempt_eq]
      have hcluster := h.fate_ne .cluster Place.cluster_ne_request
      cases hfate : s.fate .cluster with
      | error x =>
        refine ⟨rfl, fun t heq => ?_⟩
        cases heq
        exact hcluster t hfate
      | ok _ => exact ⟨rfl, ok_ne_interrupt _⟩
  unfold openWith
  generalize Service.openCluster address a.who a.kvTimeout r.enableMutationTokens s = opened
    at hopen ⊢
  obtain ⟨x | cluster, s₁⟩ := opened
  · refine ⟨h.congr hopen.1, fun t heq => ?_⟩
    cases heq
    exact hopen.2 t rfl
  · have h₁ : s₁.Uninterrupted := h.congr hopen.1
    obtain ⟨calls, hstore, herror⟩ := openCollection_cases r.bucket s₁
    have h₂ : Service.Uninterrupted { s₁ with calls } := h₁.congr rfl
    dsimp only
    generalize openCollection r.bucket s₁ = collected at hstore herror ⊢
    obtain ⟨(t | f) | _, s₂⟩ := collected
    · obtain ⟨place, hplace, hfault⟩ := herror _ rfl
      obtain ⟨f, hf⟩ := h₁ place _ hplace.ne_request hfault
      cases hf
    · obtain rfl : s₂ = { s₁ with calls } := hstore
      dsimp only
      rw [Service.close_eq]
      have hclose := h₂.fate_ne .close Place.close_ne_request
      cases hfate : Service.fate { s₁ with calls } .close with
      | error x =>
        refine ⟨h₂.congr rfl, fun t heq => ?_⟩
        cases heq
        exact hclose t hfate
      | ok _ => exact ⟨h₂.congr rfl, failure_ne_interrupt _⟩
    · obtain rfl : s₂ = { s₁ with calls } := hstore
      exact ⟨h₂, ok_ne_interrupt _⟩

/-- The cluster service, with faults for anything but requests that are no interrupts. -/
theorem uninterrupted : backend.Uninterrupted Service.Uninterrupted where
  connect r e h := by
    simp only [backend, connect]
    cases access r with
    | error f => exact ⟨h, failure_ne_interrupt f⟩
    | ok a =>
      dsimp only
      cases hnote : noteEndpoints r e with
      | error f => exact ⟨h, failure_ne_interrupt f⟩
      | ok e₁ =>
        have hstore : e₁.store = e.store := store_noteEndpoints hnote
        dsimp only
        rw [hstore]
        cases addressOf r.host with
        | error f =>
          rw [hstore]
          exact ⟨h, failure_ne_interrupt f⟩
        | ok address =>
          have hopen := openWith_uninterrupted h address a r
          dsimp only
          generalize openWith address a r e.store = opened at hopen ⊢
          obtain ⟨x | cluster, s'⟩ := opened
          · refine ⟨hopen.1, fun t heq => ?_⟩
            cases heq
            exact hopen.2 t rfl
          · dsimp only [noteOpened]
            split
            · exact ⟨hopen.1, failure_ne_interrupt _⟩
            · exact ⟨hopen.1, ok_ne_interrupt _⟩
  close handle e h := by
    have hclose := h.fate_ne .close Place.close_ne_request
    simp only [backend]
    rw [close_eq]
    exact ⟨h.congr rfl, hclose⟩
  operations :=
    ⟨fun handle id t s h => h.congr (((preserves_sameClusters s).get handle id t s
        (.refl s)).faults),
      fun handle id c o s h => h.congr (((preserves_sameClusters s).insert handle id c o s
        (.refl s)).faults),
      fun handle id c o s h => h.congr (((preserves_sameClusters s).replace handle id c o s
        (.refl s)).faults),
      fun handle id o s h => h.congr (((preserves_sameClusters s).remove handle id o s
        (.refl s)).faults)⟩

end Cluster

end Service

def MemoryCall.ending (b : Backend σ) (h : Handle) (s : σ) : MemoryCall → Except Halt Unit
  | get id t => (b.get h id t s).1.map fun _ => ()
  | insert id c o => (b.insert h id c o s).1
  | replace id c o => (b.replace h id c o s).1
  | remove id o => (b.remove h id o s).1

namespace Call

variable {c : Client} {m : Manager} {handle : Handle} {i : MemoryCall}

/-- Of all that can come of its call on the store, nothing but an interrupt comes out of a call. -/
theorem run_of_ending (hlive : m.live = some handle) (call : Call)
    (hissued : call.issued? c m = some i) (s : σ) :
    (∃ t, i.ending b handle s = .error (.interrupt t) ∧
        (call.run b c m s).1 = .error (.interrupt t)) ∨
      (∀ t, i.ending b handle s ≠ .error (.interrupt t)) ∧
        ∃ reply, (call.run b c m s).1 = .ok reply := by
  have hwrite : ∀ (x : Except Halt Unit) (s' : σ),
      (∃ t, x = .error (.interrupt t) ∧
        (Client.settle (x, s')).1.map Reply.status = .error (.interrupt t)) ∨
      (∀ t, x ≠ .error (.interrupt t)) ∧
        ∃ reply, (Client.settle (x, s')).1.map Reply.status = .ok reply := by
    intro x s'
    rcases x with (t | f) | _
    · exact Or.inl ⟨t, rfl, rfl⟩
    · exact Or.inr ⟨failure_ne_interrupt f, _, rfl⟩
    · exact Or.inr ⟨ok_ne_interrupt _, _, rfl⟩
  unfold issued? at hissued
  rw [hlive] at hissued
  cases hresolved : c.resolved with
  | none =>
    rw [hresolved] at hissued
    cases hissued
  | some r =>
    rw [hresolved] at hissued
    cases call with
    | read t k names =>
      cases hissued
      simp only [run, Client.read_eq hlive hresolved, MemoryCall.ending]
      rcases b.get handle (documentId t k) r.options.timeout s with ⟨(t | f) | _ | content, s'⟩
      · exact Or.inl ⟨t, rfl, rfl⟩
      · exact Or.inr ⟨failure_ne_interrupt f, _, rfl⟩
      · exact Or.inr ⟨ok_ne_interrupt _, _, rfl⟩
      · refine Or.inr ⟨ok_ne_interrupt _, ?_⟩
        dsimp only [Client.readAnswer]
        cases content.project names <;> exact ⟨_, rfl⟩
    | insert t k values =>
      obtain ⟨fields, hfields, rfl⟩ := Option.map_eq_some_iff.mp hissued
      simp only [run_insert hlive hresolved, hfields, MemoryCall.ending]
      exact hwrite _ (b.insert handle (documentId t k) fields.content r.options s).2
    | update t k values =>
      obtain ⟨fields, hfields, rfl⟩ := Option.map_eq_some_iff.mp hissued
      simp only [run_update hlive hresolved, hfields, MemoryCall.ending]
      exact hwrite _ (b.replace handle (documentId t k) fields.content r.options s).2
    | delete t k =>
      cases hissued
      simp only [run_delete hlive hresolved, MemoryCall.ending]
      exact hwrite _ (b.remove handle (documentId t k) r.options s).2

end Call

end StoreBinding
