import StoreBinding.World
import StoreBinding.Proofs.Lifecycle

/-!
Runs of bindings with a record of what has happened. The record says which bindings were
created and which of them hold a reference, read off the steps and their answers alone, and
which manager opened each connection. Between two steps the store and the log may change in
any way that leaves the connections as they are, so that faults come and go at will. A name
that is given to a new binding hides the older one, which keeps what it holds.
-/
namespace StoreBinding

variable {σ : Type} {b : Backend σ}

def Step.binding? : Step → Option String
  | create id _ _ | start id | stop id | read id _ _ _ | insert id _ _ _ | update id _ _ _
  | delete id _ _ | scan id => some id
  | acquire _ _ | release _ | connection _ => none

def Step.isOperation : Step → Bool
  | read _ _ _ _ | insert _ _ _ _ | update _ _ _ _ | delete _ _ _ | scan _ => true
  | _ => false

def Step.sparesRecords : Step → Bool
  | create _ _ _ | start _ | stop _ | scan _ => true
  | _ => false

theorem Step.isSome_binding? {s : Step} (hs : s.sparesRecords) : s.binding?.isSome := by
  cases s with
  | create | start | stop | scan => rfl
  | _ => cases hs

namespace World

theorem step_absent {w : World σ} {s : Step} {id : String} (hs : s.binding? = some id)
    (hnew : ∀ manager properties, s ≠ .create id manager properties)
    (h : w.members.get? id = none) :
    w.step b s = (.error (.failure (unknown id)), w) := by
  cases s with
  | create id' manager properties =>
    cases hs
    exact absurd rfl (hnew manager properties)
  | acquire manager request => cases hs
  | release manager => cases hs
  | connection manager => cases hs
  | _ =>
    cases hs
    simp [step, h]

theorem step_start {w : World σ} {id : String} {m : Member} (h : w.members.get? id = some m) :
    w.step b (.start id) = w.renew id m (Client.start b) := by
  simp [step, h]

theorem step_stop {w : World σ} {id : String} {m : Member} (h : w.members.get? id = some m) :
    w.step b (.stop id) = w.renew id m (Client.stop b) := by
  simp [step, h]

theorem step_operation (a : b.Account) (w : World σ) {s : Step} (hs : s.isOperation) :
    ∃ env, (w.step b s).2 = { w with env } ∧ a.closes env.store = a.closes w.env.store := by
  cases s with
  | read id table key names =>
    simp only [step]
    split
    · exact ⟨w.env, rfl, rfl⟩
    · exact ⟨_, rfl, Client.closes_read a ..⟩
  | insert id table key values =>
    simp only [step]
    split
    · exact ⟨w.env, rfl, rfl⟩
    · exact ⟨_, rfl, Client.closes_write a a.insert ..⟩
  | update id table key values =>
    simp only [step]
    split
    · exact ⟨w.env, rfl, rfl⟩
    · exact ⟨_, rfl, Client.closes_write a a.replace ..⟩
  | delete id table key =>
    simp only [step]
    split
    · exact ⟨w.env, rfl, rfl⟩
    · exact ⟨_, rfl, Client.closes_delete a ..⟩
  | scan id =>
    simp only [step]
    split <;> exact ⟨w.env, rfl, rfl⟩
  | _ => cases hs

/-- What opening and closing preserve of a store, all steps preserve that spare its records. -/
theorem step_spares {P : σ → Prop} (hconnect : ∀ r e, P e.store → P (b.connect r e).2.store)
    (hclose : ∀ h e, P e.store → P (b.close h e).2.store) {w : World σ} {s : Step}
    (hs : s.sparesRecords) (h : P w.env.store) : P (w.step b s).2.env.store := by
  cases s with
  | create id manager properties => exact h
  | start id =>
    simp only [step]
    split
    · exact h
    · exact Client.start_preserves hconnect _ _ h
  | stop id =>
    simp only [step]
    split
    · exact h
    · exact Client.stop_preserves hclose _ _ h
  | scan id =>
    simp only [step]
    split <;> exact h
  | _ => cases hs

end World

/-- A binding that was created. It holds a reference if it was started with success and has not
been stopped since. -/
structure Lease where
  binding : String
  manager : String
  held : Bool := false
deriving DecidableEq, Repr

namespace Lease

def newest? (id : String) : List Lease → Option Lease
  | [] => none
  | l :: rest => if l.binding = id then some l else newest? id rest

def mark (id : String) (held : Bool) : List Lease → List Lease
  | [] => []
  | l :: rest => if l.binding = id then { l with held } :: rest else l :: mark id held rest

/-- The bindings after a step and its answer. A stop gives the reference back however it ends. -/
def record (s : Step) (reply : Except Halt Reply) (ls : List Lease) : List Lease :=
  match s, reply with
  | .create id manager _, _ => { binding := id, manager } :: ls
  | .start id, .ok _ => mark id true ls
  | .stop id, _ => mark id false ls
  | _, _ => ls

def holders (manager : String) (ls : List Lease) : Nat :=
  ls.countP fun l => l.manager = manager ∧ l.held

theorem mark_of_none {id : String} {ls : List Lease} (h : newest? id ls = none) (held : Bool) :
    mark id held ls = ls := by
  induction ls with
  | nil => rfl
  | cons l rest ih =>
    simp only [newest?] at h
    split at h
    · cases h
    · next hne => rw [mark, if_neg hne, ih h]

theorem mark_of_newest {id : String} {ls : List Lease} {l : Lease} (h : newest? id ls = some l) :
    mark id l.held ls = ls := by
  induction ls with
  | nil => cases h
  | cons l' rest ih =>
    simp only [newest?] at h
    split at h
    · next heq =>
      cases h
      rw [mark, if_pos heq]
    · next hne => rw [mark, if_neg hne, ih h]

theorem newest?_mark (id id' : String) (held : Bool) (ls : List Lease) :
    newest? id' (mark id held ls) =
      if id' = id then (newest? id ls).map fun l => { l with held } else newest? id' ls := by
  induction ls with
  | nil => simp [mark, newest?]
  | cons l rest ih =>
    by_cases hl : l.binding = id
    · by_cases hid : id' = id
      · simp [mark, newest?, hl, hid]
      · have hne : ¬ id = id' := fun h => hid h.symm
        simp [mark, newest?, hl, hid, hne]
    · by_cases hid : id' = id
      · simpa [mark, newest?, hl, hid] using ih
      · simp [mark, newest?, hl, hid, ih]

/-- Marking changes the count of one manager by what the marked binding held before and after. -/
theorem holders_mark {id : String} {ls : List Lease} {l : Lease} (h : newest? id ls = some l)
    (g : String) (held : Bool) :
    holders g (mark id held ls) + (if l.manager = g ∧ l.held then 1 else 0) =
      holders g ls + (if l.manager = g ∧ held then 1 else 0) := by
  induction ls with
  | nil => cases h
  | cons l' rest ih =>
    simp only [newest?] at h
    split at h
    · next heq =>
      cases h
      simp only [mark, if_pos heq, holders, List.countP_cons, decide_eq_true_eq]
      omega
    · next hne =>
      have ih := ih h
      simp only [mark, if_neg hne, holders, List.countP_cons] at ih ⊢
      omega

theorem holders_pos_iff {manager : String} {ls : List Lease} :
    0 < holders manager ls ↔ ∃ l ∈ ls, l.manager = manager ∧ l.held = true := by
  simp only [holders, List.countP_pos_iff, decide_eq_true_eq]

theorem holders_pos {id : String} {ls : List Lease} {l : Lease} (h : newest? id ls = some l)
    (held : l.held = true) : 0 < holders l.manager ls := by
  have hm := holders_mark h l.manager false
  rw [if_pos ⟨rfl, held⟩, if_neg (by simp)] at hm
  omega

end Lease

structure Chronicle (σ : Type) where
  world : World σ
  leases : List Lease := []
  openings : List (Handle × String) := []

namespace Chronicle

def init (env : Env σ) : Chronicle σ := { world := { env } }

@[simp] theorem init_world (env : Env σ) : (init env).world = { env } := rfl

def Held (c : Chronicle σ) (id : String) : Prop :=
  ∃ l, Lease.newest? id c.leases = some l ∧ l.held = true

def manager? (c : Chronicle σ) : Step → Option String
  | .create _ manager _ => some manager
  | s => s.binding?.bind fun id => (Lease.newest? id c.leases).map Lease.manager

def added (before after : List Nat) : List Handle :=
  List.range' before.length (after.length - before.length)

def step (a : b.Account) (s : Step) (c : Chronicle σ) : Chronicle σ where
  world := (c.world.step b s).2
  leases := Lease.record s (c.world.step b s).1 c.leases
  openings :=
    match c.manager? s with
    | none => c.openings
    | some g =>
      (added (a.closes c.world.env.store) (a.closes (c.world.step b s).2.env.store)).map
        (fun h => (h, g)) ++ c.openings

theorem added_of_length_eq {before after : List Nat} (h : after.length = before.length) :
    added before after = [] := by
  rw [added, h, Nat.sub_self]
  rfl

theorem added_append (l : List Nat) (n : Nat) : added l (l ++ [n]) = [l.length] := by
  rw [added, List.length_append, List.length_singleton, Nat.add_sub_cancel_left]
  rfl

def disturb (env : Env σ) (c : Chronicle σ) : Chronicle σ :=
  { c with world := { c.world with env } }

/-- A step that opens nothing leaves the list of openings as it is. -/
theorem openings_step {a : b.Account} {s : Step} {c : Chronicle σ}
    (h : (a.closes (c.world.step b s).2.env.store).length =
      (a.closes c.world.env.store).length) :
    (c.step a s).openings = c.openings := by
  unfold step
  split
  · rfl
  · rw [added_of_length_eq h]
    rfl

theorem mem_openings_step (a : b.Account) {c : Chronicle σ} (s : Step) {p : Handle × String}
    (hp : p ∈ c.openings) : p ∈ (c.step a s).openings := by
  unfold step
  split
  · exact hp
  · exact List.mem_append_right _ hp

/-- A step that opens one connection is recorded with the manager of its binding. -/
theorem openings_step_opened {a : b.Account} {s : Step} {c : Chronicle σ} {g : String}
    (hg : c.manager? s = some g)
    (h : a.closes (c.world.step b s).2.env.store = a.closes c.world.env.store ++ [0]) :
    (c.step a s).openings = ((a.closes c.world.env.store).length, g) :: c.openings := by
  unfold step
  rw [hg, h, added_append]
  rfl

theorem step_absent {a : b.Account} {c : Chronicle σ} {s : Step} {id : String}
    (hs : s.binding? = some id) (hnew : ∀ manager properties, s ≠ .create id manager properties)
    (hm : c.world.members.get? id = none) (hl : Lease.newest? id c.leases = none) :
    c.step a s = c := by
  have hw := World.step_absent (b := b) hs hnew hm
  have hleases : (c.step a s).leases = c.leases := by
    show Lease.record s (c.world.step b s).1 c.leases = c.leases
    rw [hw]
    cases s with
    | create id' manager properties =>
      cases hs
      exact absurd rfl (hnew manager properties)
    | stop id' =>
      cases hs
      exact Lease.mark_of_none hl false
    | _ => rfl
  have hopenings : (c.step a s).openings = c.openings := openings_step (by rw [hw])
  calc
    c.step a s = ⟨(c.world.step b s).2, (c.step a s).leases, (c.step a s).openings⟩ := rfl
    _ = c := by rw [hw, hleases, hopenings]

theorem step_operation (a : b.Account) (c : Chronicle σ) {s : Step} (hs : s.isOperation) :
    ∃ env, c.step a s = c.disturb env ∧ a.closes env.store = a.closes c.world.env.store := by
  obtain ⟨env, hw, hcloses⟩ := c.world.step_operation a hs
  have hleases : (c.step a s).leases = c.leases := by
    cases s with
    | read | insert | update | delete | scan => rfl
    | _ => cases hs
  have hopenings : (c.step a s).openings = c.openings := openings_step (by rw [hw, hcloses])
  refine ⟨env, ?_, hcloses⟩
  calc
    c.step a s = ⟨(c.world.step b s).2, (c.step a s).leases, (c.step a s).openings⟩ := rfl
    _ = c.disturb env := by rw [hw, hleases, hopenings]; rfl

theorem managers_operation (a : b.Account) (c : Chronicle σ) {s : Step} (hs : s.isOperation) :
    (c.step a s).world.managers = c.world.managers := by
  obtain ⟨env, heq, -⟩ := c.step_operation a hs
  rw [heq]
  rfl

/-- The runs of bindings, with managers that nobody else uses. -/
inductive Reachable (a : b.Account) : Chronicle σ → Prop
  | init (env : Env σ) : Reachable a (init env)
  | step {c : Chronicle σ} (hc : Reachable a c) (s : Step) (hs : s.binding?.isSome) :
      Reachable a (c.step a s)
  | disturb {c : Chronicle σ} (hc : Reachable a c) (env : Env σ)
      (h : a.closes env.store = a.closes c.world.env.store) : Reachable a (c.disturb env)

def run (a : b.Account) (steps : List Step) (c : Chronicle σ) : Chronicle σ :=
  steps.foldl (fun c s => c.step a s) c

theorem Reachable.run {a : b.Account} {c : Chronicle σ} (hc : Reachable a c) {steps : List Step}
    (hs : ∀ s ∈ steps, s.binding?.isSome) : Reachable a (c.run a steps) := by
  induction steps generalizing c with
  | nil => exact hc
  | cons s rest ih =>
    have hfirst : Reachable a (c.step a s) := hc.step s (hs s List.mem_cons_self)
    exact ih hfirst fun s' hmem => hs s' (List.mem_cons_of_mem s hmem)

end Chronicle

end StoreBinding
