import Mathlib.Data.List.Basic
import StoreBinding.Proofs.Document
import StoreBinding.Proofs.Locality
import StoreBinding.Proofs.Schedule

/-!
The smoke workload does not depend on its schedule. The keys of two workers are never the same,
whatever the table is, so their operations concern different documents and none of them can tell
what the others do. Main statement: for every schedule that gives each worker its turns, the
outcome of each worker, the answer of the run, the log and the documents are those of the
workers that run one after the other.
-/
namespace StoreBinding

namespace Smoke

theorem toList_key (worker record : Nat) :
    (key worker record).toList =
      ("user".toList ++ Nat.toDigits 10 worker) ++ '-' :: Nat.toDigits 10 record := by
  have htext : ∀ text : String, toString text = text := fun _ => rfl
  have hworker : toString (worker : Int) = worker.repr := rfl
  have hrecord : toString record = record.repr := rfl
  simp [key, htext, hworker, hrecord]

theorem hyphen_notMem_toDigits (n : Nat) : '-' ∉ Nat.toDigits 10 n := by
  intro hmem
  have hdigit := Nat.isDigit_of_mem_toDigits (by decide) (by decide) hmem
  cases hdigit

theorem toDigits_inj {m n : Nat} (h : Nat.toDigits 10 m = Nat.toDigits 10 n) : m = n := by
  calc
    m = Nat.ofDigitChars 10 (Nat.toDigits 10 m) 0 := Nat.ofDigitChars_ten_toDigits.symm
    _ = Nat.ofDigitChars 10 (Nat.toDigits 10 n) 0 := by rw [h]
    _ = n := Nat.ofDigitChars_ten_toDigits

/-- No number has a hyphen, so the one in a key tells where the worker ends. -/
theorem key_inj {worker worker' record record' : Nat}
    (h : key worker record = key worker' record') : worker = worker' ∧ record = record' := by
  have hlist := congrArg String.toList h
  rw [toList_key, toList_key] at hlist
  have hfront : '-' ∉ "user".toList ++ Nat.toDigits 10 worker := by
    simp [hyphen_notMem_toDigits]
  obtain ⟨hworker, -, hrecord⟩ :=
    (List.append_cons_inj_of_notMem hfront (hyphen_notMem_toDigits record)).mp hlist
  exact ⟨toDigits_inj (List.append_cancel_left hworker), toDigits_inj hrecord⟩

def Owns (table : String) (worker : Nat) (id : String) : Prop :=
  ∃ record : Nat, id = documentId table (key worker record)

theorem not_owns {table : String} {worker worker' : Nat} (hne : worker' ≠ worker)
    (record : Nat) : ¬ Owns table worker (documentId table (key worker' record)) := by
  rintro ⟨record', h⟩
  exact hne (key_inj (documentId_right_inj h)).1

section Run

variable (settings : Settings) (choice : Choice)

theorem bindings_eq_some {seat : Nat} {db : Db (Crew Memory)}
    (h : (bindings Memory.backend settings)[seat]? = some db) :
    db = withFields settings.fieldLength (Crew.db Memory.backend seat) := by
  obtain ⟨seat', hseat, rfl⟩ := Option.map_eq_some_iff.mp (List.getElem?_map .. ▸ h)
  obtain ⟨-, rfl⟩ := List.getElem?_eq_some_iff.mp hseat
  rw [List.getElem_range]

/-- The workers cannot tell each other's operations. -/
theorem apart_bindings :
    Apart settings.table choice (bindings Memory.backend settings)
      fun seat => Crew.Alike (Owns settings.table seat) where
  refl seat w := .refl _ w
  own hat halike t := by
    rw [bindings_eq_some settings hat]
    exact (concerns_perform _ _ _ choice _ t).seen halike ⟨t.record, rfl⟩
  other hat hne halike t := by
    rw [bindings_eq_some settings hat]
    exact (concerns_perform _ _ _ choice _ t).unseen halike (not_owns hne t.record)

/-- A schedule with turns enough leaves what the workers leave one after the other, up to the order
of documents and calls. -/
theorem alike_outcomes {schedule : List Nat}
    (hschedule : ∀ seat < settings.threads,
      (plan settings.recordCount).length ≤ schedule.count seat) (w : Crew Memory) :
    (outcomes settings.table settings.recordCount choice schedule
        (bindings Memory.backend settings) w).1 =
      (inTurn settings.table settings.recordCount choice 0
        (bindings Memory.backend settings) w).1 ∧
    Crew.Alike (fun _ => True)
      (outcomes settings.table settings.recordCount choice schedule
        (bindings Memory.backend settings) w).2
      (inTurn settings.table settings.recordCount choice 0
        (bindings Memory.backend settings) w).2 := by
  have hlength : (bindings Memory.backend settings).length = settings.threads := by
    rw [bindings, List.length_map, List.length_range]
  obtain ⟨hsame, hseats⟩ :=
    (apart_bindings settings choice).outcomes_eq (hlength.symm ▸ hschedule) w
  refine ⟨hsame, Crew.Alike.of_each fun id => ?_⟩
  by_cases howned : ∃ seat < settings.threads, Owns settings.table seat id
  · obtain ⟨seat, hseat, howns⟩ := howned
    obtain ⟨common, hplayed, hturns⟩ := hseats seat (hlength.symm ▸ hseat)
    exact ⟨Owns settings.table seat, howns, hplayed.of_common hturns⟩
  · -- no worker ever calls on the document
    have hop : ∀ (seat : Nat) db, (bindings Memory.backend settings)[seat]? = some db →
        ∀ t w', Crew.Alike (· = id) w' w →
          Crew.Alike (· = id) (perform db settings.table choice seat t w').2 w := by
      intro seat db hat t w' halike
      have hseat : seat < settings.threads := hlength ▸ (List.getElem?_eq_some_iff.mp hat).1
      rw [bindings_eq_some settings hat]
      exact (concerns_perform _ _ _ choice _ t).unseen halike fun heq =>
        howned ⟨seat, hseat, t.record, heq.symm⟩
    have hplayed := outcomes_preserves (P := fun w' => Crew.Alike (· = id) w' w) hop
      settings.recordCount schedule (.refl _ w)
    have hturns := inTurn_preserves (P := fun w' => Crew.Alike (· = id) w' w)
      (fun seat db hat => Nat.zero_add seat ▸ hop seat db hat) settings.recordCount (.refl _ w)
    exact ⟨(· = id), rfl, hplayed.of_common hturns⟩

/-- Stopping the bindings does the same to crews that are alike. -/
theorem alike_stopAll {dbs : List (Db (Crew Memory))}
    (hdbs : ∀ db ∈ dbs, ∃ length seat, db = withFields length (Crew.db Memory.backend seat))
    {w w' : Crew Memory} (h : Crew.Alike (fun _ => True) w w') :
    (stopAll dbs w).1 = (stopAll dbs w').1 ∧
      Crew.Alike (fun _ => True) (stopAll dbs w).2 (stopAll dbs w').2 := by
  induction dbs generalizing w w' with
  | nil => exact ⟨rfl, h⟩
  | cons db rest ih =>
    obtain ⟨length, seat, rfl⟩ := hdbs db List.mem_cons_self
    have hstop : (withFields length (Crew.db Memory.backend seat)).stop =
        (Crew.db Memory.backend seat).stop := by
      unfold withFields
      split <;> rfl
    obtain ⟨hsame, hnext⟩ := Crew.alike_stop h seat
    rw [← hstop] at hsame hnext
    simp only [stopAll]
    rcases hw : (withFields length (Crew.db Memory.backend seat)).stop w with ⟨stopped, after⟩
    rcases hw' : (withFields length (Crew.db Memory.backend seat)).stop w' with
      ⟨stopped', after'⟩
    rw [hw, hw'] at hsame hnext
    cases hsame
    cases stopped with
    | error x => exact ⟨rfl, hnext⟩
    | ok _ => exact ih (fun db hdb => hdbs db (List.mem_cons_of_mem _ hdb)) hnext

/-- Two ways to do the work that answer the same and leave crews that are alike make runs that do
so. -/
theorem alike_runWith {work work' : Act (Crew Memory) Tally}
    (hwork : ∀ w, (work w).1 = (work' w).1 ∧ Crew.Alike (fun _ => True) (work w).2 (work' w).2)
    (w : Crew Memory) :
    (runWith work (bindings Memory.backend settings) w).1 =
        (runWith work' (bindings Memory.backend settings) w).1 ∧
      Crew.Alike (fun _ => True) (runWith work (bindings Memory.backend settings) w).2
        (runWith work' (bindings Memory.backend settings) w).2 := by
  have hdbs : ∀ db ∈ bindings Memory.backend settings,
      ∃ length seat, db = withFields length (Crew.db Memory.backend seat) := by
    intro db hdb
    obtain ⟨seat, -, rfl⟩ := List.mem_map.mp hdb
    exact ⟨_, _, rfl⟩
  simp only [runWith]
  rcases startAll (bindings Memory.backend settings) w with ⟨(x | _), started⟩
  · exact ⟨rfl, .refl _ _⟩
  · obtain ⟨hresult, hworked⟩ := hwork started
    obtain ⟨hsame, halike⟩ := alike_stopAll hdbs hworked
    dsimp only
    rw [hresult]
    rcases hs : stopAll (bindings Memory.backend settings) (work started).2 with ⟨stopped, after⟩
    rcases hs' : stopAll (bindings Memory.backend settings) (work' started).2 with
      ⟨stopped', after'⟩
    rw [hs, hs'] at hsame halike
    cases hsame
    cases stopped <;> exact ⟨rfl, halike⟩

/-- For every schedule that gives each worker as many turns as its plan has operations, the outcome
of every worker, the answer of the whole run, its log with the summary, and the documents it leaves
are those of the workers one after the other, whatever the store holds, whatever is written, and
whichever calls the script makes fail. -/
theorem schedule_irrelevant (logger : String) {schedule : List Nat}
    (hschedule : ∀ seat < settings.threads,
      (plan settings.recordCount).length ≤ schedule.count seat) (w : Crew Memory) :
    (∀ started : Crew Memory,
      (outcomes settings.table settings.recordCount choice schedule
          (bindings Memory.backend settings) started).1 =
        (inTurn settings.table settings.recordCount choice 0
          (bindings Memory.backend settings) started).1) ∧
    (runCrewUnder schedule Memory.backend logger settings choice w).1 =
      (runCrew Memory.backend logger settings choice w).1 ∧
    (runCrewUnder schedule Memory.backend logger settings choice w).2.env.log =
      (runCrew Memory.backend logger settings choice w).2.env.log ∧
    ∀ id, (runCrewUnder schedule Memory.backend logger settings choice w).2.env.store.documents.get?
        id = (runCrew Memory.backend logger settings choice w).2.env.store.documents.get? id := by
  have houtcomes := alike_outcomes settings choice hschedule
  refine ⟨fun started => (houtcomes started).1, ?_⟩
  have hwork : ∀ w,
      (interleave settings.table settings.recordCount choice schedule
          (bindings Memory.backend settings) w).1 =
        (workAll settings.table settings.recordCount choice 0
          (bindings Memory.backend settings) ∅ w).1 ∧
      Crew.Alike (fun _ => True)
        (interleave settings.table settings.recordCount choice schedule
          (bindings Memory.backend settings) w).2
        (workAll settings.table settings.recordCount choice 0
          (bindings Memory.backend settings) ∅ w).2 := by
    intro w
    rw [workAll_eq]
    exact ⟨congrArg (gather ∅) (houtcomes w).1, (houtcomes w).2⟩
  obtain ⟨hsame, halike⟩ :=
    alike_runWith settings hwork (w.recruit settings.threads settings.properties)
  simp only [runCrew_eq, runCrewUnder, runCrewWith]
  generalize runWith _ _ _ = scheduled at hsame halike ⊢
  generalize runWith _ _ _ = plain at hsame halike ⊢
  obtain ⟨result, after⟩ := scheduled
  obtain ⟨result', after'⟩ := plain
  cases hsame
  cases result with
  | error x => exact ⟨rfl, halike.env.log, fun id => halike.env.store.documents id trivial⟩
  | ok totals =>
    exact ⟨rfl, congrArg (· ++ (summary logger totals).toArray) halike.env.log,
      fun id => halike.env.store.documents id trivial⟩

end Run

def duet : Settings where
  binding _ := none
  table := "a:b"
  recordCount := 1
  fieldCount := 1
  fieldLength := 1
  threads := 2
  logLevel := "INFO"
  logFormat := .text

/-- A store that skips the updates of one record, and of the other reports the first read as absent
and refuses the first removal. -/
def unreliable : Crew Memory where
  env := { store := { script := .ofRules [⟨.replace, "a:b:user0-0", 0, .skip⟩,
    ⟨.get, "a:b:user1-0", 1, .absent⟩, ⟨.remove, "a:b:user1-0", 1, .raise (.failure .notConnected)⟩] } }

/-- Turns in an order of their own, over a store that skips and refuses some operations, log the
same. -/
theorem schedule_irrelevant_duet :
    (∀ seat < duet.threads, (plan duet.recordCount).length ≤
      [1, 0, 0, 1, 1, 0, 0, 0, 1, 1, 1, 0].count seat) ∧
    (runCrewUnder [1, 0, 0, 1, 1, 0, 0, 0, 1, 1, 1, 0] Memory.backend "smoke" duet
        (fun _ _ step => fields 1 fun _ => toString step) unreliable).2.env.log =
      (runCrew Memory.backend "smoke" duet
        (fun _ _ step => fields 1 fun _ => toString step) unreliable).2.env.log := by
  have hschedule : ∀ seat < duet.threads, (plan duet.recordCount).length ≤
      [1, 0, 0, 1, 1, 0, 0, 0, 1, 1, 1, 0].count seat := by decide
  exact ⟨hschedule, (schedule_irrelevant duet _ "smoke" hschedule unreliable).2.2.1⟩

end Smoke

end StoreBinding
