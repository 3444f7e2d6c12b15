import StoreBinding.Proofs.Tallies
import StoreBinding.Proofs.Tasks

/-!
What the workers do under a schedule, one operation after the other: which operation it was, what
it found and what came out of it. Main statement: with turns enough, a worker comes to the failure
of one of its operations, or it has made all operations of its plan and its tally counts what came out
of them.
-/
namespace StoreBinding.Smoke

variable {S : Type}

structure Deed (S : Type) where
  seat : Nat
  task : Task
  found : S
  answer : Except Halt Status

def Hand.next? : Hand → Option Task
  | working (t :: _) _ => some t
  | _ => none

section

variable (table : String) (choice : Choice)

def deed? (p : List (Worker S) × S) (seat : Nat) : Option (Deed S) :=
  p.1[seat]?.bind fun w => w.hand.next?.map fun t =>
    { seat, task := t, found := p.2, answer := (perform w.db table choice seat t p.2).1 }

def deeds : List Nat → List (Worker S) × S → List (Deed S)
  | [], _ => []
  | seat :: rest, p => (deed? table choice p seat).toList ++ deeds rest (turn table choice p seat)

end

def doneBy (seat : Nat) (l : List (Deed S)) : List (Task × Except Halt Status) :=
  (l.filter fun d => d.seat = seat).map fun d => (d.task, d.answer)

theorem doneBy_append (seat : Nat) (l l' : List (Deed S)) :
    doneBy seat (l ++ l') = doneBy seat l ++ doneBy seat l' := by
  rw [doneBy, List.filter_append, List.map_append]
  rfl

theorem mem_doneBy {seat : Nat} {l : List (Deed S)} {t : Task} {x : Except Halt Status} :
    (t, x) ∈ doneBy seat l ↔ ∃ d ∈ l, d.seat = seat ∧ d.task = t ∧ d.answer = x := by
  simp [doneBy, and_assoc]

def outcome? : Task × Except Halt Status → Option Outcome
  | (t, .ok actual) => some { action := t.action, expected := t.expected, actual }
  | (_, .error _) => none

/-- Operations that all came to a status were as expected if all of their outcomes are. -/
theorem forall_outcome?_iff {l : List (Task × Except Halt Status)}
    (answered : ∀ p ∈ l, ∃ a, p.2 = .ok a) :
    (∀ o ∈ l.filterMap outcome?, o.actual = o.expected) ↔ ∀ p ∈ l, p.2 = .ok p.1.expected := by
  simp only [List.mem_filterMap]
  constructor
  · rintro h ⟨t, x⟩ hp
    obtain ⟨a, rfl⟩ := answered _ hp
    exact congrArg Except.ok (h _ ⟨_, hp, rfl⟩)
  · rintro h o ⟨⟨t, x⟩, hp, ho⟩
    obtain ⟨a, rfl⟩ := answered _ hp
    obtain rfl := Option.some.inj ho
    exact Except.ok.inj (h _ hp)

inductive Hand.After (todo : List Task) : List (Task × Except Halt Status) → Hand → Prop
  | working {past : List (Task × Except Halt Status)} {rest : List Task} {tally : Tally}
      (split : todo = past.map Prod.fst ++ rest) (answered : ∀ p ∈ past, ∃ a, p.2 = .ok a)
      (counted : tally.Counts (past.filterMap outcome?)) :
      After todo past (.working rest tally)
  | halted {past : List (Task × Except Halt Status)} {t : Task} {h : Halt}
      (last : (t, .error h) ∈ past) : After todo past (.halted h)

variable {table : String} {choice : Choice}

/-- A turn adds what is done in it. -/
theorem Hand.After.turn {todo : List Task} {past : List (Task × Except Halt Status)} {hand : Hand}
    (h : hand.After todo past) (db : Db S) (worker : Int) (s : S) :
    (hand.turn db table choice worker s).1.After todo
      (past ++ (hand.next?.map fun t => (t, (perform db table choice worker t s).1)).toList) := by
  cases h with
  | halted last =>
    simp only [Hand.turn, Hand.next?, Option.map_none, Option.toList_none, List.append_nil]
    exact .halted last
  | @working rest tally split answered counted =>
    cases rest with
    | nil =>
      simp only [Hand.turn, Hand.next?, Option.map_none, Option.toList_none, List.append_nil]
      exact .working split answered counted
    | cons t rest =>
      simp only [Hand.turn, Hand.next?, Option.map_some, Option.toList_some]
      rcases perform db table choice worker t s with ⟨x | a, s'⟩
      · exact .halted (List.mem_append_right past List.mem_cons_self)
      · refine .working ?_ ?_ ?_
        · rw [split, List.map_append, List.append_assoc]
          rfl
        · intro p hp
          rcases List.mem_append.mp hp with hpast | hlast
          · exact answered p hpast
          · rw [List.mem_singleton.mp hlast]
            exact ⟨a, rfl⟩
        · rw [List.filterMap_append]
          exact counted.add _

/-- What a turn leaves in a seat. -/
theorem turn_get? {p : List (Worker S) × S} {mover seat : Nat} {v' : Worker S}
    (h : (turn table choice p mover).1[seat]? = some v') :
    ∃ v, p.1[seat]? = some v ∧ v'.db = v.db ∧
      v'.hand = if seat = mover then (v.hand.turn v.db table choice seat p.2).1 else v.hand := by
  unfold turn at h
  cases hat : p.1[mover]? with
  | none =>
    rw [hat] at h
    have hne : seat ≠ mover := by
      rintro rfl
      rw [hat] at h
      cases h
    exact ⟨v', h, rfl, by rw [if_neg hne]⟩
  | some v =>
    rw [hat] at h
    dsimp only at h
    by_cases heq : seat = mover
    · subst heq
      rw [List.getElem?_set_self (List.getElem?_eq_some_iff.mp hat).1] at h
      cases h
      exact ⟨v, hat, rfl, by rw [if_pos rfl]⟩
    · rw [List.getElem?_set_ne (Ne.symm heq)] at h
      exact ⟨v', h, rfl, by rw [if_neg heq]⟩

/-- A schedule leaves each worker its binding, and takes an operation off it for each turn. -/
theorem play_get? {schedule : List Nat} {p : List (Worker S) × S} {seat : Nat} {v' : Worker S}
    (h : (play table choice schedule p).1[seat]? = some v') :
    ∃ v, p.1[seat]? = some v ∧ v'.db = v.db ∧
      v'.hand.left ≤ v.hand.left - schedule.count seat := by
  induction schedule generalizing p with
  | nil => exact ⟨v', h, rfl, Nat.le_refl _⟩
  | cons mover rest ih =>
    obtain ⟨v₁, h₁, hdb₁, hleft₁⟩ := ih h
    obtain ⟨v, hv, hdb, hhand⟩ := turn_get? h₁
    refine ⟨v, hv, hdb₁.trans hdb, ?_⟩
    have hturn := v.hand.left_turn v.db table choice seat p.2
    rw [List.count_cons]
    rw [hhand] at hleft₁
    by_cases heq : seat = mover
    · rw [if_pos heq] at hleft₁
      simp only [heq, beq_self_eq_true, if_true]
      rw [heq] at hleft₁ hturn
      omega
    · rw [if_neg heq] at hleft₁
      simp only [beq_iff_eq, Ne.symm heq, if_false]
      exact hleft₁

/-- Each operation was made with the binding of its worker. -/
theorem answer_of_mem_deeds {schedule : List Nat} {p : List (Worker S) × S} {d : Deed S}
    (h : d ∈ deeds table choice schedule p) :
    ∃ v, p.1[d.seat]? = some v ∧
      d.answer = (perform v.db table choice d.seat d.task d.found).1 := by
  induction schedule generalizing p with
  | nil => exact absurd h List.not_mem_nil
  | cons mover rest ih =>
    rcases List.mem_append.mp h with hnow | hlater
    · obtain ⟨v, hv, hdeed⟩ := Option.bind_eq_some_iff.mp (Option.mem_toList.mp hnow)
      obtain ⟨t, -, rfl⟩ := Option.map_eq_some_iff.mp hdeed
      exact ⟨v, hv, rfl⟩
    · obtain ⟨v₁, h₁, hanswer⟩ := ih hlater
      obtain ⟨v, hv, hdb, -⟩ := turn_get? h₁
      exact ⟨v, hv, hdb ▸ hanswer⟩

theorem doneBy_deed? {p : List (Worker S) × S} {mover seat : Nat} {v : Worker S}
    (h : p.1[seat]? = some v) :
    doneBy seat (deed? table choice p mover).toList =
      if seat = mover then
        (v.hand.next?.map fun t => (t, (perform v.db table choice seat t p.2).1)).toList
      else [] := by
  by_cases heq : seat = mover
  · subst heq
    rw [if_pos rfl, deed?, h, Option.bind_some]
    cases v.hand.next? with
    | none => rfl
    | some t => simp [doneBy]
  · rw [if_neg heq]
    refine List.map_eq_nil_iff.mpr (List.filter_eq_nil_iff.mpr fun d hd => ?_)
    obtain ⟨v', -, hdeed⟩ := Option.bind_eq_some_iff.mp (Option.mem_toList.mp hd)
    obtain ⟨t, -, rfl⟩ := Option.map_eq_some_iff.mp hdeed
    simpa using Ne.symm heq

/-- What the workers do under a schedule is told by where they stand in the end. -/
theorem after_play (todo : List Task) (schedule : List Nat) {p : List (Worker S) × S}
    (past : Nat → List (Task × Except Halt Status))
    (h : ∀ (seat : Nat) v, p.1[seat]? = some v → v.hand.After todo (past seat)) {seat : Nat}
    {v : Worker S} (hv : (play table choice schedule p).1[seat]? = some v) :
    v.hand.After todo (past seat ++ doneBy seat (deeds table choice schedule p)) := by
  induction schedule generalizing p past with
  | nil =>
    rw [deeds, doneBy, List.filter_nil, List.map_nil, List.append_nil]
    exact h seat v hv
  | cons mover rest ih =>
    rw [deeds, doneBy_append, ← List.append_assoc]
    refine ih (fun seat => past seat ++ doneBy seat (deed? table choice p mover).toList)
      (fun other v' hv' => ?_) hv
    obtain ⟨v₀, hv₀, -, hhand⟩ := turn_get? hv'
    rw [doneBy_deed? hv₀, hhand]
    split
    · exact (h other v₀ hv₀).turn v₀.db other p.2
    · rw [List.append_nil]
      exact h other v₀ hv₀

/-- With turns enough, a worker comes to the failure of one of its operations, or to a tally of its
whole plan. -/
theorem outcomes_told (table : String) (choice : Choice) {records : Nat} {schedule : List Nat}
    {dbs : List (Db S)} {seat : Nat} (hseat : seat < dbs.length)
    (hturns : (plan records).length ≤ schedule.count seat) (s : S) :
    (∃ t h, (outcomes table records choice schedule dbs s).1[seat]? = some (.error h) ∧
      (t, .error h) ∈ doneBy seat (deeds table choice schedule (muster records dbs, s))) ∨
    ∃ tally, (outcomes table records choice schedule dbs s).1[seat]? = some (.ok tally) ∧
      (doneBy seat (deeds table choice schedule (muster records dbs, s))).map Prod.fst =
        plan records ∧
      (∀ p ∈ doneBy seat (deeds table choice schedule (muster records dbs, s)),
        ∃ a, p.2 = .ok a) ∧
      tally.Counts ((doneBy seat (deeds table choice schedule
        (muster records dbs, s))).filterMap outcome?) := by
  have hlength : seat < (play table choice schedule (muster records dbs, s)).1.length := by
    rw [length_play, muster, List.length_map]
    exact hseat
  have hat := List.getElem?_eq_getElem hlength
  generalize (play table choice schedule (muster records dbs, s)).1[seat] = v at hat
  obtain ⟨v₀, hv₀, -, hleft⟩ := play_get? hat
  have hnew : ∀ (other : Nat) v, (muster records dbs)[other]? = some v →
      v.hand = .working (plan records) ∅ := by
    intro other v hv
    rw [muster, List.getElem?_map] at hv
    obtain ⟨db, -, rfl⟩ := Option.map_eq_some_iff.mp hv
    rfl
  have hfresh : ∀ (other : Nat) v, (muster records dbs)[other]? = some v →
      v.hand.After (plan records) [] := by
    intro other v hv
    rw [hnew other v hv]
    exact .working rfl (List.forall_mem_nil _) Tally.counts_empty
  have hafter := after_play (plan records) schedule (fun _ => [])
    (p := (muster records dbs, s)) hfresh hat
  rw [List.nil_append] at hafter
  have hresult : (outcomes table records choice schedule dbs s).1[seat]? = some v.hand.result := by
    rw [outcomes, List.getElem?_map, hat]
    rfl
  rw [hresult]
  generalize v.hand = hand at hafter hleft
  cases hafter with
  | halted last => exact Or.inl ⟨_, _, rfl, last⟩
  | @working rest tally split answered counted =>
    have hnone : rest = [] := by
      rw [hnew seat v₀ hv₀] at hleft
      have hzero : rest.length ≤ (plan records).length - schedule.count seat := hleft
      exact List.eq_nil_of_length_eq_zero (by omega)
    rw [hnone, List.append_nil] at split
    exact Or.inr ⟨tally, rfl, split.symm, answered, counted⟩

end StoreBinding.Smoke
