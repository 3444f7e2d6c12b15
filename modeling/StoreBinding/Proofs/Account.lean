import StoreBinding.Memory
import StoreBinding.Manager

/-!
What happens to connections. An account of a backend tells how often each connection that was
opened has been closed, in the order of opening. Only opening and closing change it, and
nothing is opened by an attempt that fails. Main statements: the in-memory store keeps an
account, and what acquiring and releasing a manager can do, with the effect on an account.
-/
namespace StoreBinding

variable {σ : Type}

/-- With another element in a place, a count changes by what the two elements count for. -/
theorem countP_set_add {α : Type} (p : α → Bool) {l : List α} {i : Nat} {x : α}
    (hat : l[i]? = some x) (y : α) :
    (l.set i y).countP p + (p x).toNat = l.countP p + (p y).toNat := by
  induction l generalizing i with
  | nil => cases hat
  | cons head rest ih =>
    cases i with
    | zero =>
      cases hat
      simp only [List.set_cons_zero, List.countP_cons]
      cases p x <;> cases p y <;> simp
    | succ i =>
      have hrest := ih hat
      simp only [List.set_cons_succ, List.countP_cons]
      omega

/-- How often each connection of a backend has been closed. A handle is a position in the list. -/
structure Backend.Account (b : Backend σ) where
  closes : σ → List Nat
  connect_ok : ∀ {r e h e'}, b.connect r e = (.ok h, e') →
    h = (closes e.store).length ∧ closes e'.store = closes e.store ++ [0]
  connect_error : ∀ {r e x e'}, b.connect r e = (.error x, e') →
    closes e'.store = closes e.store
  close : ∀ h e, closes (b.close h e).2.store = (closes e.store).modify h (· + 1)
  get : ∀ h id t s, closes (b.get h id t s).2 = closes s
  insert : ∀ h id c o s, closes (b.insert h id c o s).2 = closes s
  replace : ∀ h id c o s, closes (b.replace h id c o s).2 = closes s
  remove : ∀ h id o s, closes (b.remove h id o s).2 = closes s

namespace Memory

structure Handled (call : MemoryCall) (m m' : Memory) : Prop where
  calls : m'.calls = m.calls.push call
  connections : m'.connections = m.connections
  connectFault : m'.connectFault = m.connectFault
  closeFault : m'.closeFault = m.closeFault
  operationFault : m'.operationFault = m.operationFault
  decide : m'.script.decide = m.script.decide

theorem Handled.withDocuments {call : MemoryCall} {m m' : Memory} (h : Handled call m m')
    (d : Documents) : Handled call m { m' with documents := d } :=
  ⟨h.calls, h.connections, h.connectFault, h.closeFault, h.operationFault, h.decide⟩

theorem handled_attempt (op : Operation) (id : String) (call : MemoryCall) (m : Memory) :
    Handled call m (attempt op id (m.record call)).2 := by
  simp only [attempt]
  split
  · exact ⟨rfl, rfl, rfl, rfl, rfl, rfl⟩
  · exact ⟨rfl, rfl, rfl, rfl, rfl, rfl⟩
  · split <;> exact ⟨rfl, rfl, rfl, rfl, rfl, rfl⟩

theorem handled_get (id : String) (t : Duration) (m : Memory) :
    Handled (.get id t) m (get id t m).2 := by
  have h := handled_attempt .get id (.get id t) m
  unfold get
  split <;> next heq => rw [heq] at h; exact h

theorem handled_insert (id : String) (c : Content) (o : WriteOptions) (m : Memory) :
    Handled (.insert id c o) m (insert id c o m).2 := by
  have h := handled_attempt .insert id (.insert id c o) m
  unfold insert
  split
  · next heq => rw [heq] at h; exact h
  · next heq => rw [heq] at h; exact h
  · next heq =>
    rw [heq] at h
    split
    · exact h
    · exact h.withDocuments _

theorem handled_replace (id : String) (c : Content) (o : WriteOptions) (m : Memory) :
    Handled (.replace id c o) m (replace id c o m).2 := by
  have h := handled_attempt .replace id (.replace id c o) m
  unfold replace
  split
  · next heq => rw [heq] at h; exact h
  · next heq => rw [heq] at h; exact h
  · next heq =>
    rw [heq] at h
    split
    · exact h.withDocuments _
    · exact h

theorem handled_remove (id : String) (o : WriteOptions) (m : Memory) :
    Handled (.remove id o) m (remove id o m).2 := by
  have h := handled_attempt .remove id (.remove id o) m
  unfold remove
  split
  · next heq => rw [heq] at h; exact h
  · next heq => rw [heq] at h; exact h
  · next heq =>
    rw [heq] at h
    split
    · exact h.withDocuments _
    · exact h

def closes (m : Memory) : List Nat := m.connections.toList.map Connection.closes

theorem Handled.closes {call : MemoryCall} {m m' : Memory} (h : Handled call m m') :
    m'.closes = m.closes := by
  rw [Memory.closes, Memory.closes, h.connections]

theorem close_eq (handle : Handle) (e : Env Memory) :
    close handle e = ((match e.store.closeFault with
      | some h => .error h
      | none => .ok ()), { e with
        store := { e.store with connections := closeAt e.store.connections handle } }) := by
  unfold close
  dsimp only
  cases e.store.closeFault <;> rfl

theorem closes_close (h : Handle) (e : Env Memory) :
    (close h e).2.store.closes = e.store.closes.modify h (· + 1) := by
  rw [close_eq, closes, closeAt, Array.toList_modify, closes]
  apply List.ext_getElem?
  intro i
  simp only [List.getElem?_map, List.getElem?_modify]
  cases e.store.connections.toList[i]? with
  | none => rfl
  | some c => by_cases hi : h = i <;> simp [hi]

def account : Memory.backend.Account where
  closes := closes
  connect_ok {r e h e'} hc := by
    simp only [backend, connect] at hc
    split at hc
    · cases hc
    · cases hc
      simp [closes]
  connect_error {r e x e'} hc := by
    simp only [backend, connect] at hc
    split at hc
    · cases hc
      rfl
    · cases hc
  close := closes_close
  get _ id t m := (handled_get id t m).closes
  insert _ id c o m := (handled_insert id c o m).closes
  replace _ id c o m := (handled_replace id c o m).closes
  remove _ id o m := (handled_remove id o m).closes

end Memory

end StoreBinding
