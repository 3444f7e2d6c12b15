import StoreBinding.Smoke

/-!
The workers of the smoke workload under a schedule. A schedule names a worker for each turn, and
in its turn a worker makes the next operation of its plan, or nothing once it has finished.
What a worker has still to do takes it from any point of the run to the outcome that the
whole plan has; so if no worker can tell the operations of the others, every schedule that
gives all of them turns enough has the outcomes of the workers that run one after the other.
-/
namespace StoreBinding.Smoke

variable {S : Type}

/-- Where a worker is in its plan. A failure ends its work and loses its tally. -/
inductive Hand
  | working (todo : List Task) (tally : Tally)
  | halted (h : Halt)

namespace Hand

def result : Hand → Except Halt Tally
  | working _ tally => .ok tally
  | halted h => .error h

def left : Hand → Nat
  | working todo _ => todo.length
  | halted _ => 0

def turn (db : Db S) (table : String) (choice : Choice) (worker : Int) (hand : Hand) (s : S) :
    Hand × S :=
  match hand with
  | working (t :: rest) tally =>
    match perform db table choice worker t s with
    | (.error h, s) => (halted h, s)
    | (.ok actual, s) => (working rest (Tally.add tally ⟨t.action, t.expected, actual⟩ 1), s)
  | _ => (hand, s)

def finish (db : Db S) (table : String) (choice : Choice) (worker : Int) (hand : Hand) :
    Act S Tally :=
  match hand with
  | working todo tally => work db table choice worker todo tally
  | halted h => fun s => (.error h, s)

variable (db : Db S) (table : String) (choice : Choice) (worker : Int)

/-- A turn is the first part of what is left. -/
theorem finish_turn (hand : Hand) (s : S) :
    (hand.turn db table choice worker s).1.finish db table choice worker
        (hand.turn db table choice worker s).2 =
      hand.finish db table choice worker s := by
  cases hand with
  | halted h => rfl
  | working todo tally =>
    cases todo with
    | nil => rfl
    | cons t rest =>
      simp only [turn, finish, work]
      cases perform db table choice worker t s with
      | mk actual s => cases actual <;> rfl

theorem finish_of_left {hand : Hand} (h : hand.left = 0) (s : S) :
    hand.finish db table choice worker s = (hand.result, s) := by
  cases hand with
  | halted h => rfl
  | working todo tally =>
    have hnil : todo = [] := List.length_eq_zero_iff.mp h
    rw [hnil]
    rfl

theorem left_turn (hand : Hand) (s : S) :
    (hand.turn db table choice worker s).1.left ≤ hand.left - 1 := by
  cases hand with
  | halted h => exact Nat.le_refl _
  | working todo tally =>
    cases todo with
    | nil => exact Nat.le_refl _
    | cons t rest =>
      simp only [turn]
      split
      · exact Nat.zero_le _
      · exact Nat.le_refl _

end Hand

structure Worker (S : Type) where
  db : Db S
  hand : Hand

def turn (table : String) (choice : Choice) (p : List (Worker S) × S) (seat : Nat) :
    List (Worker S) × S :=
  match p.1[seat]? with
  | none => p
  | some w =>
    let (hand, s) := w.hand.turn w.db table choice seat p.2
    (p.1.set seat { w with hand }, s)

def play (table : String) (choice : Choice) (schedule : List Nat) (p : List (Worker S) × S) :
    List (Worker S) × S :=
  schedule.foldl (turn table choice) p

def muster (records : Nat) (dbs : List (Db S)) : List (Worker S) :=
  dbs.map fun db => { db, hand := .working (plan records) ∅ }

def outcomes (table : String) (records : Nat) (choice : Choice) (schedule : List Nat)
    (dbs : List (Db S)) (s : S) : List (Except Halt Tally) × S :=
  match play table choice schedule (muster records dbs, s) with
  | (workers, s) => (workers.map fun w => w.hand.result, s)

def inTurn (table : String) (records : Nat) (choice : Choice) :
    Nat → List (Db S) → S → List (Except Halt Tally) × S
  | _, [], s => ([], s)
  | worker, db :: rest, s =>
    match runWorker db table records choice worker s with
    | (outcome, s) =>
      match inTurn table records choice (worker + 1) rest s with
      | (later, s) => (outcome :: later, s)

def gather : Tally → List (Except Halt Tally) → Except Halt Tally
  | totals, [] => .ok totals
  | totals, .ok tally :: rest => gather (Tally.merge totals tally) rest
  | _, .error h :: _ => .error h

theorem workAll_eq (table : String) (records : Nat) (choice : Choice) (worker : Nat)
    (dbs : List (Db S)) (totals : Tally) (s : S) :
    workAll table records choice worker dbs totals s =
      (gather totals (inTurn table records choice worker dbs s).1,
        (inTurn table records choice worker dbs s).2) := by
  induction dbs generalizing worker totals s with
  | nil => rfl
  | cons db rest ih =>
    simp only [workAll, inTurn]
    cases runWorker db table records choice worker s with
    | mk outcome s =>
      cases outcome with
      | ok tally => exact ih ..
      | error h =>
        dsimp only
        rw [ih]
        rfl

def interleave (table : String) (records : Nat) (choice : Choice) (schedule : List Nat)
    (dbs : List (Db S)) : Act S Tally := fun s =>
  match outcomes table records choice schedule dbs s with
  | (l, s) => (gather ∅ l, s)

def runWith (work : Act S Tally) (dbs : List (Db S)) : Act S Tally := fun s =>
  let (result, s) :=
    match startAll dbs s with
    | (.error h, s) => (.error h, s)
    | (.ok (), s) => work s
  match stopAll dbs s with
  | (.error h, s) => (.error h, s)
  | (.ok (), s) => (result, s)

def runCrewWith {σ : Type} (work : List (Db (Crew σ)) → Act (Crew σ) Tally) (b : Backend σ)
    (logger : String) (settings : Settings) : Act (Crew σ) Bool := fun w =>
  logged (reported logger (runWith (work (bindings b settings)) (bindings b settings)
    (w.recruit settings.threads settings.properties)))

/-- The run as it is has its workers one after the other. -/
theorem runCrew_eq {σ : Type} (b : Backend σ) (logger : String) (settings : Settings)
    (choice : Choice) :
    runCrew b logger settings choice =
      runCrewWith (fun dbs => workAll settings.table settings.recordCount choice 0 dbs ∅) b logger
        settings := rfl

def runCrewUnder {σ : Type} (schedule : List Nat) (b : Backend σ) (logger : String)
    (settings : Settings) (choice : Choice) : Act (Crew σ) Bool :=
  runCrewWith (interleave settings.table settings.recordCount choice schedule) b logger settings

section Preserves

variable {table : String} {choice : Choice} {P : S → Prop}

theorem Hand.turn_preserves {db : Db S} {worker : Int}
    (hop : ∀ t s, P s → P (perform db table choice worker t s).2) (hand : Hand) {s : S}
    (h : P s) : P (hand.turn db table choice worker s).2 := by
  unfold Hand.turn
  split
  · next t rest tally =>
    have ht := hop t s h
    split <;> next heq => rw [heq] at ht; exact ht
  · exact h

theorem work_preserves {db : Db S} {worker : Int}
    (hop : ∀ t s, P s → P (perform db table choice worker t s).2) (todo : List Task)
    (tally : Tally) {s : S} (h : P s) : P (work db table choice worker todo tally s).2 := by
  induction todo generalizing tally s with
  | nil => exact h
  | cons t rest ih =>
    have ht := hop t s h
    simp only [work]
    split
    · next heq => rw [heq] at ht; exact ht
    · next heq => rw [heq] at ht; exact ih _ ht

/-- What every operation of the workers preserves, they preserve when they run in turn. -/
theorem inTurn_preserves {worker : Nat} {dbs : List (Db S)}
    (hop : ∀ (seat : Nat) db, dbs[seat]? = some db → ∀ t s, P s →
      P (perform db table choice (worker + seat : Nat) t s).2)
    (records : Nat) {s : S} (h : P s) : P (inTurn table records choice worker dbs s).2 := by
  induction dbs generalizing worker s with
  | nil => exact h
  | cons db rest ih =>
    simp only [inTurn]
    have hfirst : P (runWorker db table records choice worker s).2 := by
      rw [runWorker_eq_work]
      exact work_preserves (hop 0 db rfl) (plan records) ∅ h
    apply ih _ hfirst
    intro seat db hat
    have hnext := hop (seat + 1) db hat
    rwa [Nat.add_comm seat 1, ← Nat.add_assoc] at hnext

/-- What every operation of the workers preserves, every schedule preserves. -/
theorem play_preserves {workers : List (Worker S)}
    (hop : ∀ (seat : Nat) w, workers[seat]? = some w → ∀ t s, P s →
      P (perform w.db table choice seat t s).2)
    (schedule : List Nat) {s : S} (h : P s) : P (play table choice schedule (workers, s)).2 := by
  induction schedule generalizing workers s with
  | nil => exact h
  | cons seat rest ih =>
    simp only [play, List.foldl_cons, turn]
    split
    · exact ih hop h
    · next w hat =>
      refine ih ?_ (Hand.turn_preserves (hop seat w hat) w.hand h)
      intro other v hv
      rw [List.getElem?_set] at hv
      split at hv
      · next heq =>
        split at hv
        · cases hv
          subst heq
          exact hop seat w hat
        · cases hv
      · exact hop other v hv

theorem outcomes_preserves {dbs : List (Db S)}
    (hop : ∀ (seat : Nat) db, dbs[seat]? = some db → ∀ t s, P s →
      P (perform db table choice seat t s).2)
    (records : Nat) (schedule : List Nat) {s : S} (h : P s) :
    P (outcomes table records choice schedule dbs s).2 := by
  refine play_preserves (fun seat w hw => ?_) schedule h
  obtain ⟨db, hdb, rfl⟩ := Option.map_eq_some_iff.mp (List.getElem?_map .. ▸ hw)
  exact hop seat db hdb

end Preserves

/-- Workers that cannot tell each other's operations. To each worker some states are alike: its own
operations answer the same in both and lead to states that are alike again, and nothing that
another one does makes a difference. -/
structure Apart (table : String) (choice : Choice) (dbs : List (Db S))
    (alike : Nat → S → S → Prop) : Prop where
  refl : ∀ seat s, alike seat s s
  own : ∀ {seat : Nat} {db s s'}, dbs[seat]? = some db → alike seat s s' → ∀ t,
    (perform db table choice seat t s).1 = (perform db table choice seat t s').1 ∧
      alike seat (perform db table choice seat t s).2 (perform db table choice seat t s').2
  other : ∀ {seat other : Nat} {db s s'}, dbs[other]? = some db → other ≠ seat → alike seat s s' →
    ∀ t, alike seat (perform db table choice other t s).2 s'

namespace Apart

variable {table : String} {choice : Choice} {dbs : List (Db S)} {alike : Nat → S → S → Prop}
  {seat : Nat} {db : Db S} {s s' : S}

theorem turn (h : Apart table choice dbs alike) (hat : dbs[seat]? = some db)
    (hs : alike seat s s') (hand : Hand) :
    (hand.turn db table choice seat s).1 = (hand.turn db table choice seat s').1 ∧
      alike seat (hand.turn db table choice seat s).2 (hand.turn db table choice seat s').2 := by
  unfold Hand.turn
  split
  · next t rest tally =>
    obtain ⟨hsame, halike⟩ := h.own hat hs t
    rcases hp : perform db table choice seat t s with ⟨actual, next⟩
    rcases hp' : perform db table choice seat t s' with ⟨actual', next'⟩
    rw [hp, hp'] at hsame halike
    cases hsame
    cases actual with
    | error x => exact ⟨rfl, halike⟩
    | ok actual => exact ⟨rfl, halike⟩
  · exact ⟨rfl, hs⟩

theorem work (h : Apart table choice dbs alike) (hat : dbs[seat]? = some db)
    (hs : alike seat s s') (todo : List Task) (tally : Tally) :
    (work db table choice seat todo tally s).1 = (work db table choice seat todo tally s').1 ∧
      alike seat (work db table choice seat todo tally s).2
        (work db table choice seat todo tally s').2 := by
  induction todo generalizing tally s s' with
  | nil => exact ⟨rfl, hs⟩
  | cons t rest ih =>
    obtain ⟨hsame, halike⟩ := h.own hat hs t
    simp only [Smoke.work]
    rcases hp : perform db table choice seat t s with ⟨actual, next⟩
    rcases hp' : perform db table choice seat t s' with ⟨actual', next'⟩
    rw [hp, hp'] at hsame halike
    cases hsame
    cases actual with
    | error x => exact ⟨rfl, halike⟩
    | ok actual => exact ih halike _

end Apart

/-- Each worker, from a state that is alike to it, still comes to the outcome that it has when it
runs alone from the start, and has no more operations left than the given number. -/
structure OnCourse (table : String) (records : Nat) (choice : Choice) (dbs : List (Db S))
    (alike : Nat → S → S → Prop) (start : S) (left : Nat → Nat) (p : List (Worker S) × S) :
    Prop where
  length : p.1.length = dbs.length
  worker : ∀ (seat : Nat) db, dbs[seat]? = some db → ∃ hand s', p.1[seat]? = some { db, hand } ∧
    alike seat p.2 s' ∧
    hand.finish db table choice seat s' = runWorker db table records choice seat start ∧
    hand.left ≤ left seat

namespace OnCourse

variable {table : String} {records : Nat} {choice : Choice} {dbs : List (Db S)}
  {alike : Nat → S → S → Prop} {start : S} {left : Nat → Nat} {p : List (Worker S) × S}

theorem muster (h : Apart table choice dbs alike) (records : Nat) (start : S) :
    OnCourse table records choice dbs alike start (fun _ => (plan records).length)
      (muster records dbs, start) := by
  refine ⟨List.length_map .., ?_⟩
  intro seat db hat
  refine ⟨.working (plan records) ∅, start, ?_, h.refl seat start, ?_, Nat.le_refl _⟩
  · simp [Smoke.muster, hat]
  · rw [runWorker_eq_work]
    rfl

theorem turn (h : Apart table choice dbs alike)
    (hp : OnCourse table records choice dbs alike start left p) (mover : Nat) :
    OnCourse table records choice dbs alike start
      (fun seat => left seat - if mover = seat then 1 else 0) (turn table choice p mover) := by
  unfold Smoke.turn
  split
  · next hnone =>
    refine ⟨hp.length, ?_⟩
    intro seat db hat
    have hne : mover ≠ seat := by
      rintro rfl
      obtain ⟨hand, s', hseat, -⟩ := hp.worker mover db hat
      rw [hseat] at hnone
      cases hnone
    simpa [hne] using hp.worker seat db hat
  · next w hw =>
    refine ⟨by rw [List.length_set, hp.length], ?_⟩
    intro seat db hat
    obtain ⟨hand, s', hseat, halike, hfinish, hleft⟩ := hp.worker seat db hat
    by_cases heq : mover = seat
    · subst heq
      rw [hw] at hseat
      cases hseat
      obtain ⟨hsame, hnext⟩ := h.turn hat halike hand
      refine ⟨_, _, List.getElem?_set_self (List.getElem?_eq_some_iff.mp hw).1, hnext, ?_, ?_⟩
      · rw [hsame, Hand.finish_turn, hfinish]
      · have hturn := Hand.left_turn db table choice mover hand p.2
        dsimp only
        rw [if_pos rfl]
        omega
    · refine ⟨hand, s', ?_, ?_, hfinish, ?_⟩
      · rw [← hseat]
        exact List.getElem?_set_ne heq
      · -- the worker that moves has a binding of its own, in its own seat
        have hlt : mover < dbs.length := hp.length ▸ (List.getElem?_eq_some_iff.mp hw).1
        obtain ⟨_, _, hmover, -⟩ := hp.worker mover _ (List.getElem?_eq_getElem hlt)
        rw [hw] at hmover
        cases hmover
        exact Hand.turn_preserves (P := fun s => alike seat s s')
          (fun t s hs => h.other (List.getElem?_eq_getElem hlt) heq hs t) _ halike
      · rw [if_neg heq]
        exact hleft

theorem play (h : Apart table choice dbs alike)
    (hp : OnCourse table records choice dbs alike start left p) (schedule : List Nat) :
    OnCourse table records choice dbs alike start
      (fun seat => left seat - schedule.count seat) (play table choice schedule p) := by
  induction schedule generalizing left p with
  | nil => exact hp
  | cons mover rest ih =>
    have hnext := ih (hp.turn h mover)
    have hleft : (fun seat => left seat - (mover :: rest).count seat) =
        fun seat => (left seat - if mover = seat then 1 else 0) - rest.count seat := by
      funext seat
      simp only [List.count_cons, beq_iff_eq]
      omega
    rw [hleft]
    exact hnext

end OnCourse

namespace Apart

variable {table : String} {choice : Choice} {dbs : List (Db S)} {alike : Nat → S → S → Prop}

/-- Under a schedule with turns enough, each worker has the outcome that it has alone, and leaves
what to it is alike. -/
theorem outcomes_alone (h : Apart table choice dbs alike) {records : Nat} {schedule : List Nat}
    (hschedule : ∀ seat < dbs.length, (plan records).length ≤ schedule.count seat) (s : S) :
    (outcomes table records choice schedule dbs s).1.length = dbs.length ∧
    ∀ (seat : Nat) db, dbs[seat]? = some db →
      (outcomes table records choice schedule dbs s).1[seat]? =
        some (runWorker db table records choice seat s).1 ∧
      alike seat (outcomes table records choice schedule dbs s).2
        (runWorker db table records choice seat s).2 := by
  have hplay := (OnCourse.muster h records s).play h schedule
  refine ⟨?_, ?_⟩
  · rw [outcomes, List.length_map, hplay.length]
  · intro seat db hat
    obtain ⟨hand, s', hseat, halike, hfinish, hleft⟩ := hplay.worker seat db hat
    have henough := hschedule seat (List.getElem?_eq_some_iff.mp hat).1
    rw [Hand.finish_of_left db table choice seat (by omega)] at hfinish
    rw [← hfinish]
    refine ⟨?_, halike⟩
    rw [outcomes, List.getElem?_map, hseat]
    rfl

theorem runWorker (h : Apart table choice dbs alike) (records : Nat) {seat : Nat} {db : Db S}
    {s s' : S} (hat : dbs[seat]? = some db) (hs : alike seat s s') :
    (runWorker db table records choice seat s).1 = (runWorker db table records choice seat s').1 ∧
      alike seat (Smoke.runWorker db table records choice seat s).2
        (Smoke.runWorker db table records choice seat s').2 := by
  rw [runWorker_eq_work]
  exact h.work hat hs (plan records) ∅

theorem runWorker_other (h : Apart table choice dbs alike) (records : Nat) {seat other : Nat}
    {db : Db S} {s s' : S} (hat : dbs[other]? = some db) (hne : other ≠ seat)
    (hs : alike seat s s') : alike seat (Smoke.runWorker db table records choice other s).2 s' := by
  rw [runWorker_eq_work]
  exact work_preserves (P := fun s => alike seat s s') (fun t s hs => h.other hat hne hs t)
    (plan records) ∅ hs

/-- The same of the workers one after the other. -/
theorem inTurn_alone (h : Apart table choice dbs alike) (records : Nat) {worker : Nat}
    {rest : List (Db S)} (hrest : ∀ seat : Nat, rest[seat]? = dbs[worker + seat]?) {s start : S}
    (hs : ∀ seat, worker ≤ seat → alike seat s start) :
    (inTurn table records choice worker rest s).1.length = rest.length ∧
    ∀ (seat : Nat) db, rest[seat]? = some db →
      (inTurn table records choice worker rest s).1[seat]? =
        some (Smoke.runWorker db table records choice (worker + seat : Nat) start).1 ∧
      alike (worker + seat) (inTurn table records choice worker rest s).2
        (Smoke.runWorker db table records choice (worker + seat : Nat) start).2 := by
  induction rest generalizing worker s with
  | nil => exact ⟨rfl, nofun⟩
  | cons first rest ih =>
    have hat : dbs[worker]? = some first := (hrest 0).symm
    have hshift : ∀ seat : Nat, rest[seat]? = dbs[worker + 1 + seat]? := by
      intro seat
      rw [Nat.add_assoc, Nat.add_comm 1 seat]
      exact hrest (seat + 1)
    obtain ⟨hsame, halike⟩ := h.runWorker records hat (hs worker (Nat.le_refl _))
    obtain ⟨hlength, hlater⟩ := ih hshift fun seat hseat =>
      h.runWorker_other records hat (Nat.ne_of_lt hseat) (hs seat (Nat.le_of_succ_le hseat))
    refine ⟨congrArg (· + 1) hlength, ?_⟩
    intro seat db hseat
    cases seat with
    | zero =>
      cases hseat
      have hkept := inTurn_preserves (P := fun s' => alike worker s' _)
        (fun seat db hdb t s' hs' => h.other ((hshift seat).symm.trans hdb) (by omega) hs' t)
        records halike
      exact ⟨congrArg some hsame, hkept⟩
    | succ seat =>
      have hnext := hlater seat db hseat
      rw [Nat.add_assoc, Nat.add_comm 1 seat] at hnext
      exact hnext

/-- Every schedule with turns enough has the outcomes of the workers one after the other, and what
it leaves is alike for each of them. -/
theorem outcomes_eq (h : Apart table choice dbs alike) {records : Nat} {schedule : List Nat}
    (hschedule : ∀ seat < dbs.length, (plan records).length ≤ schedule.count seat) (s : S) :
    (outcomes table records choice schedule dbs s).1 = (inTurn table records choice 0 dbs s).1 ∧
    ∀ seat < dbs.length, ∃ s', alike seat (outcomes table records choice schedule dbs s).2 s' ∧
      alike seat (inTurn table records choice 0 dbs s).2 s' := by
  obtain ⟨hlength, hplayed⟩ := h.outcomes_alone hschedule s
  have hall : ∀ seat : Nat, dbs[seat]? = dbs[0 + seat]? := fun seat => by rw [Nat.zero_add]
  obtain ⟨hlength', hturns⟩ := h.inTurn_alone records hall fun seat _ => h.refl seat s
  refine ⟨?_, ?_⟩
  · apply List.ext_getElem?
    intro seat
    cases hat : dbs[seat]? with
    | none =>
      have hout := List.getElem?_eq_none_iff.mp hat
      rw [List.getElem?_eq_none (hlength ▸ hout), List.getElem?_eq_none (hlength' ▸ hout)]
    | some db =>
      have hturn := (hturns seat db hat).1
      rw [Nat.zero_add] at hturn
      rw [(hplayed seat db hat).1, hturn]
  · intro seat hseat
    have hat := List.getElem?_eq_getElem hseat
    have hturn := (hturns seat _ hat).2
    rw [Nat.zero_add] at hturn
    exact ⟨_, (hplayed seat _ hat).2, hturn⟩

end Apart

end StoreBinding.Smoke
