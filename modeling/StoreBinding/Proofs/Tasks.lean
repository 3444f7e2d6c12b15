import StoreBinding.Proofs.Calls
import StoreBinding.Proofs.Turns

/-!
What the smoke workload is made of. An operation of a worker is a call of the binding in its seat,
and comes out with the status of the reply; a tally counts nothing but expected outcomes exactly if
that holds of each outcome that went into it; and the bindings of a run are started, and stopped,
one by one.
-/
namespace StoreBinding

variable {σ S : Type}

def Reply.toStatus : Reply → Status
  | .status s => s
  | .record r => r.status
  | .done | .handle _ => .error

/-- What a manager gives back without an interrupt of the close succeeds. -/
theorem Manager.release_ok {b : Backend σ} (m : Manager) {e : Env σ}
    (quiet : ∀ h t, (b.close h e).1 ≠ .error (.interrupt t)) : (m.release b e).1 = .ok () := by
  unfold release
  split
  · rfl
  · next h _ =>
    dsimp only
    split
    · rfl
    · split
      · rfl
      · rfl
      · next heq => exact absurd (congrArg Prod.fst heq) (quiet h _)

theorem Client.stop_ok {b : Backend σ} (c : Client) (m : Manager) {e : Env σ}
    (quiet : ∀ h t, (b.close h e).1 ≠ .error (.interrupt t)) : (c.stop b m e).1 = .ok () := by
  unfold stop
  split
  · exact m.release_ok quiet
  · rfl

namespace Smoke

theorem plan_succ (n : Nat) : plan (n + 1) = plan n ++ tasks n := by
  rw [plan, List.range_succ, List.flatMap_append, List.flatMap_singleton]
  rfl

def Task.call (table : String) (choice : Choice) (worker : Int) (t : Task) : Call :=
  match t.action with
  | .insert =>
    .insert table (key worker t.record) (some (choice worker t.record t.step).content)
  | .read => .read table (key worker t.record) []
  | .update =>
    .update table (key worker t.record) (some (choice worker t.record t.step).content)
  | .delete => .delete table (key worker t.record)

/-- An operation is a call of the binding in its seat. -/
theorem perform_eq (b : Backend σ) (seat : Nat) (table : String) (choice : Choice) (worker : Int)
    (t : Task) (w : Crew σ) :
    perform (Crew.db b seat) table choice worker t w =
      match w.clients[seat]? with
      | none => (.ok .error, w)
      | some c =>
        (((t.call table choice worker).run b c w.manager w.env.store).1.map Reply.toStatus,
          { w with env := { w.env with
            store := ((t.call table choice worker).run b c w.manager w.env.store).2 } }) := by
  have hmap : ∀ {α : Type} (f : α → Reply) (x : Except Halt α),
      (x.map f).map Reply.toStatus = x.map fun a => (f a).toStatus := by
    intro α f x
    cases x <;> rfl
  have hself : ∀ x : Except Halt Status, x.map (fun s => s) = x := by
    intro x
    cases x <;> rfl
  obtain ⟨record, step, action, expected⟩ := t
  cases action <;>
    simp only [perform, Task.call, Crew.db, Crew.operate, Crew.readStatus, Call.run] <;>
    cases w.clients[seat]? <;> simp only [hmap, Reply.toStatus, hself]

/-- Fields that can be asked for do not stand in the way of any operation. -/
theorem withFields_of_le {length : Nat} (h : length ≤ maxLetters) (db : Db S) :
    withFields length db = db := if_pos h

/-- At worst they have an operation fail before anything happens. -/
theorem perform_withFields (length : Nat) (db : Db S) (table : String) (choice : Choice)
    (worker : Int) (t : Task) (s : S) :
    perform (withFields length db) table choice worker t s = perform db table choice worker t s ∨
      perform (withFields length db) table choice worker t s =
        (.error (.failure .fieldTooLong), s) := by
  unfold withFields
  split
  · exact Or.inl rfl
  · obtain ⟨record, step, action, expected⟩ := t
    cases action with
    | insert | update => exact Or.inr rfl
    | read | delete => exact Or.inl rfl

theorem perform_insert_of_lt {length : Nat} (h : maxLetters < length) (db : Db S) (table : String)
    (choice : Choice) (worker : Int) {t : Task} (ht : t.action = .insert) (s : S) :
    perform (withFields length db) table choice worker t s =
      (.error (.failure .fieldTooLong), s) := by
  unfold withFields
  rw [if_neg (Nat.not_le.mpr h)]
  simp only [perform, ht]

section Tallies

theorem succeeded_add (t : Tally) (o : Outcome) (n : Nat) :
    succeeded (Tally.add t o n) = (succeeded t && o.isExpected) := by
  unfold succeeded Tally.add
  rw [OrderedMap.keys_insert]
  split
  · next hmem =>
    cases hall : t.keys.all Outcome.isExpected with
    | false => rfl
    | true => exact (List.all_eq_true.mp hall o hmem).symm
  · rw [List.all_append, List.all_cons, List.all_nil, Bool.and_true]

theorem succeeded_merge (t u : Tally) :
    succeeded (Tally.merge t u) = (succeeded t && succeeded u) := by
  have hfold : ∀ (l : List (Outcome × Nat)) (t : Tally),
      succeeded (l.foldl (fun t p => Tally.add t p.1 p.2) t) =
        (succeeded t && (l.map Prod.fst).all Outcome.isExpected) := by
    intro l
    induction l with
    | nil =>
      intro t
      rw [List.map_nil, List.all_nil, Bool.and_true]
      rfl
    | cons p rest ih =>
      intro t
      rw [List.foldl_cons, ih, succeeded_add, List.map_cons, List.all_cons, Bool.and_assoc]
  exact hfold u.entries t

/-- Tallies are put together unless a worker failed; the first failure is the answer then. -/
theorem gather_cases (totals : Tally) (l : List (Except Halt Tally)) :
    (∃ h, gather totals l = .error h ∧ .error h ∈ l) ∨
      ∃ t, gather totals l = .ok t ∧ (∀ h, .error h ∉ l) ∧
        (succeeded t = true ↔
          succeeded totals = true ∧ ∀ tally, .ok tally ∈ l → succeeded tally = true) := by
  induction l generalizing totals with
  | nil => exact Or.inr ⟨totals, rfl, by simp, by simp⟩
  | cons x rest ih =>
    cases x with
    | error h => exact Or.inl ⟨h, rfl, List.mem_cons_self⟩
    | ok tally =>
      rcases ih (Tally.merge totals tally) with ⟨h, hgather, hmem⟩ | ⟨t, hgather, hnone, ht⟩
      · exact Or.inl ⟨h, hgather, List.mem_cons_of_mem _ hmem⟩
      · refine Or.inr ⟨t, hgather, fun h => by simp [hnone h], ?_⟩
        rw [ht, succeeded_merge, Bool.and_eq_true, and_assoc]
        simp

theorem gather_replicate (totals : Tally) {n : Nat} (hn : 0 < n) (h : Halt) :
    gather totals (List.replicate n (.error h)) = .error h := by
  obtain ⟨m, rfl⟩ := Nat.exists_eq_succ_of_ne_zero (Nat.ne_of_gt hn)
  rfl

end Tallies

def starting : List (Db S) → S → List (Except Halt Unit)
  | [], _ => []
  | db :: rest, s => (db.start s).1 :: starting rest (db.start s).2

/-- Starting succeeds if every start does; else the answer is that of one that did not. -/
theorem startAll_cases (dbs : List (Db S)) (s : S) :
    ((startAll dbs s).1 = .ok () ∧ ∀ x ∈ starting dbs s, x = .ok ()) ∨
      ∃ h, (startAll dbs s).1 = .error h ∧ .error h ∈ starting dbs s := by
  induction dbs generalizing s with
  | nil => exact Or.inl ⟨rfl, by simp [starting]⟩
  | cons db rest ih =>
    rcases hs : db.start s with ⟨h | _, s₁⟩ <;> simp only [startAll, starting, hs]
    · exact Or.inr ⟨h, rfl, List.mem_cons_self⟩
    · rcases ih s₁ with ⟨hok, hall⟩ | ⟨h, herror, hmem⟩
      · refine Or.inl ⟨hok, fun x hx => ?_⟩
        rcases List.mem_cons.mp hx with rfl | hx
        · rfl
        · exact hall x hx
      · exact Or.inr ⟨h, herror, List.mem_cons_of_mem _ hmem⟩

/-- Stops that succeed one by one succeed together. -/
theorem stopAll_ok {P : S → Prop} {dbs : List (Db S)}
    (hstop : ∀ db ∈ dbs, ∀ s, P s → (db.stop s).1 = .ok () ∧ P (db.stop s).2) {s : S} (h : P s) :
    ∃ s', stopAll dbs s = (.ok (), s') ∧ P s' := by
  induction dbs generalizing s with
  | nil => exact ⟨s, rfl, h⟩
  | cons db rest ih =>
    obtain ⟨hok, hafter⟩ := hstop db List.mem_cons_self s h
    obtain ⟨s', hlater, hs'⟩ := ih (fun db' hdb' => hstop db' (List.mem_cons_of_mem db hdb')) hafter
    refine ⟨s', ?_, hs'⟩
    rcases hs : db.stop s with ⟨stopped, s₁⟩
    rw [hs] at hok hlater
    dsimp only at hok hlater
    subst hok
    simp only [stopAll, hs, hlater]

/-- All bindings of a run can be stopped over a store whose closes are never interrupted. -/
theorem stopAll_bindings {b : Backend σ} {P : σ → Prop}
    (quiet : ∀ h e, P e.store → ∀ t, (b.close h e).1 ≠ .error (.interrupt t))
    (hclose : ∀ h e, P e.store → P (b.close h e).2.store) (settings : Settings) {w : Crew σ}
    (h : P w.env.store) :
    ∃ w', stopAll (bindings b settings) w = (.ok (), w') ∧ P w'.env.store := by
  refine stopAll_ok (P := fun w : Crew σ => P w.env.store) (fun db hdb w h => ?_) h
  obtain ⟨seat, -, rfl⟩ := List.mem_map.mp hdb
  simp only [stop_withFields, Crew.db, Crew.renew]
  split
  · exact ⟨rfl, h⟩
  · next c _ =>
    exact ⟨c.stop_ok w.manager fun handle t => quiet handle w.env h t,
      c.stop_preserves hclose w.manager h⟩

section Refused

variable {table : String} {choice : Choice} {f : Failure}

def Hand.Doomed (db : Db S) (table : String) (choice : Choice) (worker : Int) (f : Failure)
    (hand : Hand) : Prop :=
  hand = .halted (.failure f) ∨ ∃ t rest tally, hand = .working (t :: rest) tally ∧
    ∀ s, perform db table choice worker t s = (.error (.failure f), s)

theorem Hand.Doomed.turn {db : Db S} {worker : Int} {hand : Hand}
    (h : hand.Doomed db table choice worker f) (s : S) :
    hand.turn db table choice worker s = (.halted (.failure f), s) := by
  rcases h with rfl | ⟨t, rest, tally, rfl, hfails⟩
  · rfl
  · simp only [Hand.turn, hfails]

theorem turn_doomed {workers : List (Worker S)}
    (h : ∀ (seat : Nat) v, workers[seat]? = some v → v.hand.Doomed v.db table choice seat f)
    (mover : Nat) (s : S) :
    turn table choice (workers, s) mover =
      (workers.mapIdx fun seat v =>
        if seat = mover then { v with hand := .halted (.failure f) } else v, s) := by
  unfold turn
  cases hat : workers[mover]? with
  | none =>
    refine Prod.ext (List.ext_getElem? fun seat => ?_) rfl
    rw [List.getElem?_mapIdx]
    by_cases heq : seat = mover
    · rw [heq, hat]
      rfl
    · simp [heq]
  | some v =>
    dsimp only
    rw [(h mover v hat).turn]
    refine Prod.ext (List.ext_getElem? fun seat => ?_) rfl
    rw [List.getElem?_mapIdx]
    by_cases heq : seat = mover
    · rw [heq, hat, List.getElem?_set_self (List.getElem?_eq_some_iff.mp hat).1]
      simp
    · rw [List.getElem?_set_ne (Ne.symm heq)]
      simp [heq]

/-- Workers that cannot do the first thing they have to do leave everything as it is. -/
theorem play_doomed (schedule : List Nat) {workers : List (Worker S)}
    (h : ∀ (seat : Nat) v, workers[seat]? = some v → v.hand.Doomed v.db table choice seat f)
    (s : S) :
    play table choice schedule (workers, s) =
      (workers.mapIdx fun seat v =>
        if seat ∈ schedule then { v with hand := .halted (.failure f) } else v, s) := by
  induction schedule generalizing workers with
  | nil => exact Prod.ext (List.ext_getElem? fun seat => by simp [play]) rfl
  | cons mover rest ih =>
    rw [play, List.foldl_cons, ← play, turn_doomed h, ih, List.mapIdx_mapIdx]
    · refine Prod.ext (List.ext_getElem? fun seat => ?_) rfl
      rw [List.getElem?_mapIdx, List.getElem?_mapIdx]
      congr 1
      funext v
      dsimp only [Function.comp]
      by_cases heq : seat = mover
      · simp [heq]
      · simp [heq]
    · intro seat v hv
      rw [List.getElem?_mapIdx] at hv
      obtain ⟨v', hv', rfl⟩ := Option.map_eq_some_iff.mp hv
      split
      · exact Or.inl rfl
      · exact h seat v' hv'

/-- A plan with records begins with a write. -/
theorem exists_plan_eq {records : Nat} (h : 0 < records) :
    ∃ t rest, plan records = t :: rest ∧ t.action = .insert := by
  obtain ⟨n, rfl⟩ := Nat.exists_eq_succ_of_ne_zero (Nat.ne_of_gt h)
  rw [plan, List.range_succ_eq_map, List.flatMap_cons]
  exact ⟨_, _, rfl, rfl⟩

/-- Fields that nobody can ask for end the work of every worker before the store hears of it. -/
theorem outcomes_of_lt {b : Backend σ} {settings : Settings} (choice : Choice)
    {schedule : List Nat} (hlength : maxLetters < settings.fieldLength)
    (hrecords : 0 < settings.recordCount)
    (hschedule : ∀ seat < settings.threads,
      (plan settings.recordCount).length ≤ schedule.count seat) (w : Crew σ) :
    outcomes settings.table settings.recordCount choice schedule (bindings b settings) w =
      (List.replicate settings.threads (.error (.failure .fieldTooLong)), w) := by
  obtain ⟨t, rest, hplan, hinsert⟩ := exists_plan_eq hrecords
  have hdoomed : ∀ (seat : Nat) v,
      (muster settings.recordCount (bindings b settings))[seat]? = some v →
        v.hand.Doomed v.db settings.table choice seat .fieldTooLong := by
    intro seat v hv
    rw [muster, List.getElem?_map] at hv
    obtain ⟨db, hdb, rfl⟩ := Option.map_eq_some_iff.mp hv
    obtain ⟨seat', -, rfl⟩ := List.mem_map.mp (List.mem_of_getElem? hdb)
    refine Or.inr ⟨t, rest, ∅, by rw [hplan], fun w => ?_⟩
    exact perform_insert_of_lt hlength (Crew.db b seat') settings.table choice seat hinsert w
  rw [outcomes, play_doomed schedule hdoomed]
  refine Prod.ext (List.ext_getElem? fun seat => ?_) rfl
  rw [List.getElem?_map, List.getElem?_mapIdx, muster, List.getElem?_map]
  by_cases hseat : seat < settings.threads
  · have hturns : seat ∈ schedule := by
      refine List.count_pos_iff.mp (Nat.lt_of_lt_of_le ?_ (hschedule seat hseat))
      rw [hplan]
      exact Nat.succ_pos _
    rw [bindings_get? b settings hseat, List.getElem?_replicate_of_lt hseat]
    simp only [Option.map_some, if_pos hturns]
    rfl
  · have hout : (bindings b settings)[seat]? = none :=
      List.getElem?_eq_none (by rw [length_bindings]; exact Nat.not_lt.mp hseat)
    rw [hout, List.getElem?_eq_none (by rw [List.length_replicate]; exact Nat.not_lt.mp hseat)]
    rfl

end Refused

end Smoke

end StoreBinding
