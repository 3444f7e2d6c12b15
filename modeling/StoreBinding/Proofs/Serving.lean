import StoreBinding.World
import StoreBinding.Proofs.Lifecycle

/-!
The in-memory store without faults. Every call on a document is then answered from the documents
alone, and a write that cannot be made leaves them as they are. Starting and stopping bindings
does not touch them, whatever happens to connections.
-/
namespace StoreBinding

variable {σ : Type} {b : Backend σ}

namespace Memory

structure Serving (d : Documents) (m : Memory) : Prop where
  documents : m.documents = d
  operationFault : m.operationFault = none
  unscripted : ∀ op id n, m.script.decide op id n = none

namespace Serving

variable {d : Documents} {m : Memory}

theorem empty : Serving ∅ {} := ⟨rfl, rfl, fun _ _ _ => rfl⟩

theorem withDocuments (h : Serving d m) (d' : Documents) :
    Serving d' { m with documents := d' } :=
  ⟨rfl, h.operationFault, h.unscripted⟩

theorem withConnections (h : Serving d m) (cs : Array Connection) :
    Serving d { m with connections := cs } :=
  ⟨h.documents, h.operationFault, h.unscripted⟩

theorem attempt (h : Serving d m) (op : Operation) (id : String) (call : MemoryCall) :
    ∃ m', Memory.attempt op id (m.record call) = (.ok none, m') ∧ Serving d m' := by
  refine ⟨{ m.record call with script := (m.script.consult op id).2 }, ?_,
    h.documents, h.operationFault, h.unscripted⟩
  have hscript : (m.script.consult op id).1 = none := h.unscripted ..
  have hfault : m.operationFault = none := h.operationFault
  simp only [Memory.attempt, record, hscript, hfault]

theorem get (h : Serving d m) (id : String) (t : Duration) :
    ∃ m', Memory.get id t m = (.ok (d.get? id), m') ∧ Serving d m' := by
  obtain ⟨m', hattempt, hm'⟩ := h.attempt .get id (.get id t)
  refine ⟨m', ?_, hm'⟩
  simp only [Memory.get, hattempt, hm'.documents]

theorem insert_absent (h : Serving d m) {id : String} (hd : d.get? id = none) (c : Content)
    (o : WriteOptions) :
    ∃ m', Memory.insert id c o m = (.ok (), m') ∧ Serving (OrderedMap.insert d id c) m' := by
  obtain ⟨m', hattempt, hm'⟩ := h.attempt .insert id (.insert id c o)
  refine ⟨_, ?_, hm'.withDocuments _⟩
  simp [Memory.insert, hattempt, hm'.documents, OrderedMap.contains, hd]

theorem insert_present (h : Serving d m) {id : String} {c' : Content} (hd : d.get? id = some c')
    (c : Content) (o : WriteOptions) :
    ∃ m', Memory.insert id c o m = (.error (.failure (.existing id)), m') ∧ Serving d m' := by
  obtain ⟨m', hattempt, hm'⟩ := h.attempt .insert id (.insert id c o)
  refine ⟨m', ?_, hm'⟩
  simp [Memory.insert, hattempt, hm'.documents, OrderedMap.contains, hd]

theorem replace_absent (h : Serving d m) {id : String} (hd : d.get? id = none) (c : Content)
    (o : WriteOptions) :
    ∃ m', Memory.replace id c o m = (.error (.failure (.missing id)), m') ∧ Serving d m' := by
  obtain ⟨m', hattempt, hm'⟩ := h.attempt .replace id (.replace id c o)
  refine ⟨m', ?_, hm'⟩
  simp [Memory.replace, hattempt, hm'.documents, OrderedMap.contains, hd]

theorem replace_present (h : Serving d m) {id : String} {c' : Content} (hd : d.get? id = some c')
    (c : Content) (o : WriteOptions) :
    ∃ m', Memory.replace id c o m = (.ok (), m') ∧ Serving (OrderedMap.insert d id c) m' := by
  obtain ⟨m', hattempt, hm'⟩ := h.attempt .replace id (.replace id c o)
  refine ⟨_, ?_, hm'.withDocuments _⟩
  simp [Memory.replace, hattempt, hm'.documents, OrderedMap.contains, hd]

theorem remove_absent (h : Serving d m) {id : String} (hd : d.get? id = none) (o : WriteOptions) :
    ∃ m', Memory.remove id o m = (.error (.failure (.missing id)), m') ∧ Serving d m' := by
  obtain ⟨m', hattempt, hm'⟩ := h.attempt .remove id (.remove id o)
  refine ⟨m', ?_, hm'⟩
  simp [Memory.remove, hattempt, hm'.documents, OrderedMap.contains, hd]

theorem remove_present (h : Serving d m) {id : String} {c' : Content} (hd : d.get? id = some c')
    (o : WriteOptions) :
    ∃ m', Memory.remove id o m = (.ok (), m') ∧ Serving (OrderedMap.erase d id) m' := by
  obtain ⟨m', hattempt, hm'⟩ := h.attempt .remove id (.remove id o)
  refine ⟨_, ?_, hm'.withDocuments _⟩
  simp [Memory.remove, hattempt, hm'.documents, OrderedMap.contains, hd]

theorem connect {e : Env Memory} (h : Serving d e.store) (r : ConnectionRequest) :
    Serving d (backend.connect r e).2.store := by
  simp only [backend, Memory.connect]
  split
  · exact h
  · exact h.withConnections _

theorem close {e : Env Memory} (h : Serving d e.store) (handle : Handle) :
    Serving d (backend.close handle e).2.store := by
  simp only [backend, Memory.close]
  split <;> exact h.withConnections _

end Serving

end Memory

end StoreBinding
