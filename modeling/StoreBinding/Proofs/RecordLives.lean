import StoreBinding.Proofs.Containment
import StoreBinding.Proofs.Serving
import StoreBinding.Proofs.Tasks

/-!
The life of a record in a store without faults. An operation of a worker then depends on nothing but
the documents, so a plan has a course that can be told from them alone: what each operation comes
out with, and what it makes of them. Main statements: a worker that runs alone follows the course of
its plan and makes one call for each operation; every operation comes out as expected exactly if
none of the records is there beforehand, and none of them is there afterwards in any case.
-/
namespace StoreBinding

structure Memory.Received (d : Documents) (calls : List MemoryCall) (m : Memory) : Prop where
  serving : Serving d m
  calls : m.calls.toList = calls

/-- What a store without faults answers to a call, it answers having received that call. -/
theorem Memory.Received.answers {d d' : Documents} {calls : List MemoryCall} {m : Memory}
    {call : MemoryCall} {α : Type} {p : α × Memory} {x : α} (h : Received d calls m)
    (hcall : Handled call m p.2) (hanswer : ∃ m', p = (x, m') ∧ Serving d' m') :
    ∃ m', p = (x, m') ∧ Received d' (calls ++ [call]) m' := by
  obtain ⟨m', rfl, hserving⟩ := hanswer
  refine ⟨m', rfl, hserving, ?_⟩
  rw [hcall.calls, Array.toList_push, h.calls]

def callsOn (id : String) (calls : List MemoryCall) : List MemoryCall :=
  calls.filter fun call => call.id = id

theorem callsOn_append (id : String) (calls calls' : List MemoryCall) :
    callsOn id (calls ++ calls') = callsOn id calls ++ callsOn id calls' :=
  List.filter_append ..

structure Crew.ReadyAt (w : Crew Memory) (seat : Nat) (o : WriteOptions) : Prop where
  client : ∃ c r, w.clients[seat]? = some c ∧ c.resolved = some r ∧ r.options = o
  live : ∃ h, w.manager.live = some h

namespace Smoke

namespace Task

variable (table : String) (choice : Choice) (worker : Int)

def id (t : Task) : String := documentId table (key worker t.record)

def content (t : Task) : Content := (choice worker t.record t.step).content

def request (o : WriteOptions) (t : Task) : MemoryCall :=
  match t.action with
  | .insert => .insert (t.id table worker) (t.content choice worker) o
  | .read => .get (t.id table worker) o.timeout
  | .update => .replace (t.id table worker) (t.content choice worker) o
  | .delete => .remove (t.id table worker) o

def effect (t : Task) (d : Documents) : Status × Documents :=
  match t.action, d.get? (t.id table worker) with
  | .insert, none => (.ok, d.insert (t.id table worker) (t.content choice worker))
  | .insert, some _ => (.error, d)
  | .read, none => (.notFound, d)
  | .read, some c => (if (c.project []).isOk then .ok else .error, d)
  | .update, none => (.error, d)
  | .update, some _ => (.ok, d.insert (t.id table worker) (t.content choice worker))
  | .delete, none => (.error, d)
  | .delete, some _ => (.ok, d.erase (t.id table worker))

end Task

def course (table : String) (choice : Choice) (worker : Int) :
    List Task → Documents → List Status × Documents
  | [], d => ([], d)
  | t :: rest, d =>
    let (status, d) := t.effect table choice worker d
    let (later, d) := course table choice worker rest d
    (status :: later, d)

section Course

variable (table : String) (choice : Choice) (worker : Int) {w : Crew Memory} {seat : Nat}
  {o : WriteOptions} {d : Documents} {calls : List MemoryCall}

/-- The call of an operation in a store without faults. -/
theorem received_run {c : Client} {g : Manager} {handle : Handle} {r : Resolved}
    (hlive : g.live = some handle) (hresolved : c.resolved = some r) {m : Memory}
    (h : Memory.Received d calls m) (t : Task) :
    ∃ m', (((t.call table choice worker).run Memory.backend c g m).1.map Reply.toStatus,
        ((t.call table choice worker).run Memory.backend c g m).2) =
        (.ok (t.effect table choice worker d).1, m') ∧
      Memory.Received (t.effect table choice worker d).2
        (calls ++ [t.request table choice worker r.options]) m' := by
  obtain ⟨record, step, action, expected⟩ := t
  have hencoded : ∀ f : Fields, Call.encoded? (some f.content) = some f := fun f => by
    rw [Call.encoded?, Option.bind_some, Fields.encode_content]
    rfl
  -- with faults out of the way, only whether the document is there makes a difference
  cases action with
  | insert =>
    simp only [Task.call, Task.effect, Task.request, Task.id, Task.content,
      Call.run_insert hlive hresolved, hencoded, Memory.backend]
    cases hd : d.get? (documentId table (key worker record)) with
    | none =>
      obtain ⟨m', hinsert, hm'⟩ :=
        h.answers (Memory.handled_insert _ _ _ m) (h.serving.insert_absent hd _ _)
      rw [hinsert]
      exact ⟨m', rfl, hm'⟩
    | some c =>
      obtain ⟨m', hinsert, hm'⟩ :=
        h.answers (Memory.handled_insert _ _ _ m) (h.serving.insert_present hd _ _)
      rw [hinsert]
      exact ⟨m', rfl, hm'⟩
  | read =>
    obtain ⟨m', hget, hm'⟩ := h.answers (Memory.handled_get _ _ m)
      (h.serving.get (documentId table (key worker record)) r.options.timeout)
    simp only [Task.call, Task.effect, Task.request, Task.id, Call.run,
      Client.read_eq hlive hresolved, Memory.backend, hget]
    refine ⟨m', ?_, ?_⟩
    · cases d.get? (documentId table (key worker record)) with
      | none => rfl
      | some c =>
        dsimp only [Client.readAnswer]
        cases c.project [] <;> rfl
    · cases d.get? (documentId table (key worker record)) <;> exact hm'
  | update =>
    simp only [Task.call, Task.effect, Task.request, Task.id, Task.content,
      Call.run_update hlive hresolved, hencoded, Memory.backend]
    cases hd : d.get? (documentId table (key worker record)) with
    | none =>
      obtain ⟨m', hreplace, hm'⟩ :=
        h.answers (Memory.handled_replace _ _ _ m) (h.serving.replace_absent hd _ _)
      rw [hreplace]
      exact ⟨m', rfl, hm'⟩
    | some c =>
      obtain ⟨m', hreplace, hm'⟩ :=
        h.answers (Memory.handled_replace _ _ _ m) (h.serving.replace_present hd _ _)
      rw [hreplace]
      exact ⟨m', rfl, hm'⟩
  | delete =>
    simp only [Task.call, Task.effect, Task.request, Task.id, Call.run_delete hlive hresolved,
      Memory.backend]
    cases hd : d.get? (documentId table (key worker record)) with
    | none =>
      obtain ⟨m', hremove, hm'⟩ :=
        h.answers (Memory.handled_remove _ _ m) (h.serving.remove_absent hd _)
      rw [hremove]
      exact ⟨m', rfl, hm'⟩
    | some c =>
      obtain ⟨m', hremove, hm'⟩ :=
        h.answers (Memory.handled_remove _ _ m) (h.serving.remove_present hd _)
      rw [hremove]
      exact ⟨m', rfl, hm'⟩

/-- An operation of a binding that is ready has the effect on the documents that it is to have. -/
theorem perform_received (hready : w.ReadyAt seat o) (h : Memory.Received d calls w.env.store)
    (t : Task) :
    ∃ m, perform (Crew.db Memory.backend seat) table choice worker t w =
        (.ok (t.effect table choice worker d).1, { w with env := { w.env with store := m } }) ∧
      Memory.Received (t.effect table choice worker d).2
        (calls ++ [t.request table choice worker o]) m := by
  obtain ⟨⟨c, r, hat, hresolved, rfl⟩, handle, hlive⟩ := hready
  obtain ⟨m, hrun, hm⟩ := received_run table choice worker hlive hresolved h t
  obtain ⟨hstatus, hstore⟩ := Prod.mk.inj hrun
  refine ⟨m, ?_, hm⟩
  rw [perform_eq, hat]
  dsimp only
  rw [hstatus, hstore]

/-- Operations that a worker makes on its own follow their course. -/
theorem work_received (hready : w.ReadyAt seat o) (h : Memory.Received d calls w.env.store)
    (todo : List Task) (tally : Tally) :
    ∃ t m, work (Crew.db Memory.backend seat) table choice worker todo tally w =
        (.ok t, { w with env := { w.env with store := m } }) ∧
      Memory.Received (course table choice worker todo d).2
        (calls ++ todo.map (Task.request table choice worker o)) m ∧
      (succeeded t = true ↔ succeeded tally = true ∧
        (course table choice worker todo d).1 = todo.map Task.expected) := by
  induction todo generalizing w d calls tally with
  | nil =>
    refine ⟨tally, w.env.store, rfl, ?_, by simp [course]⟩
    rwa [List.map_nil, List.append_nil]
  | cons t rest ih =>
    obtain ⟨m₁, hperform, hm₁⟩ := perform_received table choice worker hready h t
    obtain ⟨tally', m', hwork, hm', hsucceeded⟩ :=
      ih (w := { w with env := { w.env with store := m₁ } }) ⟨hready.client, hready.live⟩ hm₁
        (Tally.add tally ⟨t.action, t.expected, (t.effect table choice worker d).1⟩ 1)
    refine ⟨tally', m', ?_, ?_, ?_⟩
    · simp only [work, hperform]
      exact hwork
    · rwa [List.append_assoc] at hm'
    · rw [hsucceeded, succeeded_add, Bool.and_eq_true, Outcome.isExpected, decide_eq_true_eq,
        and_assoc]
      simp only [course, List.map_cons, List.cons.injEq]

end Course

section Plan

variable (table : String) (choice : Choice) (worker : Nat) (o : WriteOptions)

theorem course_append (l l' : List Task) (d : Documents) :
    course table choice worker (l ++ l') d =
      ((course table choice worker l d).1 ++
          (course table choice worker l' (course table choice worker l d).2).1,
        (course table choice worker l' (course table choice worker l d).2).2) := by
  induction l generalizing d with
  | nil => rfl
  | cons t rest ih => simp only [List.cons_append, course, ih]

theorem length_course (l : List Task) (d : Documents) :
    (course table choice worker l d).1.length = l.length := by
  induction l generalizing d with
  | nil => rfl
  | cons t rest ih => simp only [course, List.length_cons, ih]

def idOf (record : Nat) : String := documentId table (key worker record)

theorem idOf_inj {record record' : Nat} (h : idOf table worker record = idOf table worker record') :
    record = record' := (key_inj (documentId_right_inj h)).2

/-- A record that is there beforehand spoils its first operation; it is gone in the end either
way, and no other is touched. -/
theorem course_tasks (record : Nat) (d : Documents) :
    ((course table choice worker (tasks record) d).1 = (tasks record).map Task.expected ↔
        d.get? (idOf table worker record) = none) ∧
      ∀ id, (course table choice worker (tasks record) d).2.get? id =
        if id = idOf table worker record then none else d.get? id := by
  have hproject : ∀ f : Fields, (f.content.project []).isOk = true := fun f => by
    rw [Fields.project_content]
    rfl
  have hgone : ∀ d : Documents, (OrderedMap.erase d (idOf table worker record)).get?
      (idOf table worker record) = none := fun d => by
    rw [OrderedMap.get?_erase, if_pos rfl]
  unfold idOf at hgone ⊢
  generalize hid : documentId table (key worker record) = id₀ at hgone ⊢
  have hrest : ∀ (d : Documents) c id, (OrderedMap.erase (OrderedMap.insert d id₀ c) id₀).get? id =
      if id = id₀ then none else d.get? id := fun d c id => by
    rw [OrderedMap.get?_erase]
    split
    · rfl
    · next hne => rw [OrderedMap.get?_insert_of_ne d hne]
  cases hd : d.get? id₀ with
  | none =>
    simp only [tasks, steps, List.mapIdx_cons, List.mapIdx_nil, course, Task.effect, Task.id,
      Task.content, hid, hd, OrderedMap.get?_insert_self, hproject, hgone, if_true]
    refine ⟨iff_of_true rfl trivial, fun id => ?_⟩
    rw [hrest]
    split
    · rfl
    · next hne => exact OrderedMap.get?_insert_of_ne d hne _
  | some c =>
    simp only [tasks, steps, List.mapIdx_cons, List.mapIdx_nil, course, Task.effect, Task.id,
      Task.content, hid, hd, OrderedMap.get?_insert_self, hproject, hgone, if_true]
    refine ⟨iff_of_false ?_ (Option.some_ne_none c), hrest d _⟩
    intro hsame
    cases (List.cons.inj hsame).1

/-- Records that are there beforehand spoil the plan; all of its records are gone in the end
either way, and no other is touched. -/
theorem course_plan (records : Nat) (d : Documents) :
    ((course table choice worker (plan records) d).1 = (plan records).map Task.expected ↔
        ∀ n < records, d.get? (idOf table worker n) = none) ∧
      ∀ id, (course table choice worker (plan records) d).2.get? id =
        if ∃ n < records, id = idOf table worker n then none else d.get? id := by
  induction records with
  | zero => simp [plan, course]
  | succ n ih =>
    obtain ⟨hstatuses, hdocuments⟩ := ih
    obtain ⟨hlast, hafter⟩ :=
      course_tasks table choice worker n (course table choice worker (plan n) d).2
    have huntouched : (course table choice worker (plan n) d).2.get? (idOf table worker n) =
        d.get? (idOf table worker n) := by
      rw [hdocuments, if_neg]
      rintro ⟨m, hm, hsame⟩
      exact absurd (idOf_inj table worker hsame) (Nat.ne_of_gt hm)
    rw [huntouched] at hlast
    rw [plan_succ, course_append, List.map_append]
    constructor
    · rw [Nat.forall_lt_succ_right, ← hstatuses, ← hlast]
      constructor
      · intro hsame
        exact List.append_inj hsame (by rw [length_course, List.length_map])
      · rintro ⟨hbefore, htasks⟩
        rw [hbefore, htasks]
    · intro id
      simp only [hafter, hdocuments, Nat.exists_lt_succ_right]
      by_cases hid : id = idOf table worker n
      · rw [if_pos hid, if_pos (Or.inr hid)]
      · rw [if_neg hid]
        simp only [hid, or_false]

def life (record : Nat) : List MemoryCall :=
  let id := idOf table worker record
  [.insert id (choice worker record 0).content o, .get id o.timeout,
    .replace id (choice worker record 2).content o, .get id o.timeout,
    .remove id o, .get id o.timeout]

theorem request_tasks (record : Nat) :
    (tasks record).map (Task.request table choice worker o) = life table choice worker o record :=
  rfl

theorem callsOn_life (record : Nat) (id : String) :
    callsOn id (life table choice worker o record) =
      if id = idOf table worker record then life table choice worker o record else [] := by
  by_cases h : idOf table worker record = id
  · simp [callsOn, life, MemoryCall.id, h]
  · simp [callsOn, life, MemoryCall.id, h, Ne.symm h]

/-- A plan leads to the life of each of its records, and to no other call. -/
theorem callsOn_plan (records : Nat) (id : String) :
    (∀ n < records, id = idOf table worker n →
      callsOn id ((plan records).map (Task.request table choice worker o)) =
        life table choice worker o n) ∧
    ((∀ n < records, id ≠ idOf table worker n) →
      callsOn id ((plan records).map (Task.request table choice worker o)) = []) := by
  induction records with
  | zero => exact ⟨fun n hn => absurd hn (Nat.not_lt_zero n), fun _ => rfl⟩
  | succ records ih =>
    obtain ⟨hplanned, hother⟩ := ih
    rw [plan_succ, List.map_append, callsOn_append, request_tasks, callsOn_life]
    constructor
    · rintro n hn rfl
      rcases Nat.lt_succ_iff_lt_or_eq.mp hn with hlt | rfl
      · have hne : idOf table worker n ≠ idOf table worker records := fun heq =>
          absurd (idOf_inj table worker heq) (Nat.ne_of_lt hlt)
        rw [hplanned n hlt rfl, if_neg hne, List.append_nil]
      · have hnew : ∀ m < n, idOf table worker n ≠ idOf table worker m := fun m hm heq =>
          absurd (idOf_inj table worker heq) (Nat.ne_of_gt hm)
        rw [hother hnew, if_pos rfl, List.nil_append]
    · intro hnone
      rw [hother fun n hn => hnone n (Nat.lt_succ_of_lt hn),
        if_neg (hnone records (Nat.lt_succ_self records)), List.append_nil]

end Plan

/-- A worker that runs alone gives each of its records its life. Everything comes out as expected
exactly if none of the records is there beforehand. -/
theorem runWorker_received (table : String) (choice : Choice) (worker : Nat) {w : Crew Memory}
    {seat : Nat} {o : WriteOptions} {d : Documents} {calls : List MemoryCall}
    (hready : w.ReadyAt seat o) (h : Memory.Received d calls w.env.store) (records : Nat) :
    ∃ t m, runWorker (Crew.db Memory.backend seat) table records choice worker w =
        (.ok t, { w with env := { w.env with store := m } }) ∧
      Memory.Received (course table choice worker (plan records) d).2
        (calls ++ (plan records).map (Task.request table choice worker o)) m ∧
      (succeeded t = true ↔ ∀ n < records, d.get? (idOf table worker n) = none) := by
  obtain ⟨t, m, hwork, hm, hsucceeded⟩ :=
    work_received table choice worker hready h (plan records) ∅
  refine ⟨t, m, ?_, hm, ?_⟩
  · rw [runWorker_eq_work]
    exact hwork
  · rw [hsucceeded, ← (course_plan table choice worker records d).1]
    exact and_iff_right rfl

end Smoke

end StoreBinding
