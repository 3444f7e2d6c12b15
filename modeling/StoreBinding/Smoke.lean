import StoreBinding.Client
import StoreBinding.Settings

/-!
The smoke workload. Every worker takes each of its records through six operations, counts
what came out, and goes on whatever the status. All bindings are started before the work
and stopped after it, however it ends. The summary has one line for each operation and
pair of expected and actual status.
-/
namespace StoreBinding

/-- A binding as a harness drives it. -/
structure Db (S : Type) where
  start : Act S Unit
  stop : Act S Unit
  read : String → String → Act S Status
  insert : String → String → Fields → Act S Status
  update : String → String → Fields → Act S Status
  delete : String → String → Act S Status

/-- Bindings that share a manager, by seat. -/
structure Crew (σ : Type) where
  env : Env σ
  manager : Manager := {}
  clients : List Client := []

namespace Crew

variable {σ : Type}

/-- Runs an operation of the binding in a seat; an empty seat answers with an error. -/
def operate (seat : Nat) (op : Client → Manager → Act σ Status) : Act (Crew σ) Status := fun w =>
  match w.clients[seat]? with
  | none => (.ok .error, w)
  | some c =>
    match op c w.manager w.env.store with
    | (r, store) => (r, { w with env := { w.env with store } })

def renew (seat : Nat)
    (change : Client → Manager → Env σ → Except Halt Unit × Client × Manager × Env σ) :
    Act (Crew σ) Unit := fun w =>
  match w.clients[seat]? with
  | none => (.ok (), w)
  | some c =>
    match change c w.manager w.env with
    | (r, c, manager, env) => (r, { env, manager, clients := w.clients.set seat c })

/-- The status of a read; an interrupt passes through. -/
def readStatus (b : Backend σ) (table key : String) (c : Client) (m : Manager) : Act σ Status :=
  fun s =>
    match c.read b m table key [] s with
    | (r, s) => (r.map Client.ReadResult.status, s)

def db (b : Backend σ) (seat : Nat) : Db (Crew σ) where
  start := renew seat (Client.start b)
  stop := renew seat (Client.stop b)
  read table key := operate seat (readStatus b table key)
  insert table key fields :=
    operate seat fun c m => c.insert b m table key (some fields.content)
  update table key fields :=
    operate seat fun c m => c.update b m table key (some fields.content)
  delete table key := operate seat fun c m => c.delete b m table key

/-- As many new bindings as asked for, all with the same properties. -/
def recruit (w : Crew σ) (count : Nat) (properties : RawProperties) : Crew σ :=
  { w with clients := List.replicate count { properties } }

end Crew

namespace Smoke

inductive Action
  | insert
  | read
  | update
  | delete
deriving DecidableEq, Repr

def Action.name : Action → String
  | insert => "insert"
  | read => "read"
  | update => "update"
  | delete => "delete"

/-- The life of a record: what is done to it and what should come out. -/
def steps : List (Action × Status) :=
  [(.insert, .ok), (.read, .ok), (.update, .ok), (.read, .ok), (.delete, .ok), (.read, .notFound)]

structure Outcome where
  action : Action
  expected : Status
  actual : Status
deriving DecidableEq, Repr

def Outcome.isExpected (o : Outcome) : Bool := o.actual = o.expected

/-- How often each outcome came, in the order of their first coming. -/
abbrev Tally := OrderedMap Outcome Nat

namespace Tally

def add (t : Tally) (o : Outcome) (n : Nat) : Tally := t.insert o ((t.get? o).getD 0 + n)

def merge (t u : Tally) : Tally := u.entries.foldl (fun t p => add t p.1 p.2) t

end Tally

/-- The fields to write, by worker, record and step. -/
abbrev Choice := Int → Nat → Nat → Fields

/-- One operation of a worker's plan. -/
structure Task where
  record : Nat
  step : Nat
  action : Action
  expected : Status
deriving DecidableEq, Repr

/-- What is done to one record. -/
def tasks (record : Nat) : List Task :=
  steps.mapIdx fun step (action, expected) => { record, step, action, expected }

/-- Everything that a worker does, in order. -/
def plan (records : Nat) : List Task := (List.range records).flatMap tasks

def key (worker : Int) (record : Nat) : String := s!"user{worker}-{record}"

variable {S : Type}

def perform (db : Db S) (table : String) (choice : Choice) (worker : Int) (t : Task) :
    Act S Status :=
  let k := key worker t.record
  match t.action with
  | .insert => db.insert table k (choice worker t.record t.step)
  | .read => db.read table k
  | .update => db.update table k (choice worker t.record t.step)
  | .delete => db.delete table k

/-- Works through a list of tasks, adding to a tally. -/
def work (db : Db S) (table : String) (choice : Choice) (worker : Int) :
    List Task → Tally → Act S Tally
  | [], tally => fun s => (.ok tally, s)
  | t :: rest, tally => fun s =>
    match perform db table choice worker t s with
    | (.error h, s) => (.error h, s)
    | (.ok actual, s) =>
      work db table choice worker rest (Tally.add tally ⟨t.action, t.expected, actual⟩ 1) s

/-- Works through a number of records from the given one on. The tasks of a record are listed when
its turn comes. -/
def workFrom (db : Db S) (table : String) (choice : Choice) (worker : Int) :
    Nat → Nat → Tally → Act S Tally
  | 0, _, tally => fun s => (.ok tally, s)
  | records + 1, record, tally => fun s =>
    match work db table choice worker (tasks record) tally s with
    | (.error h, s) => (.error h, s)
    | (.ok tally, s) => workFrom db table choice worker records (record + 1) tally s

def runWorker (db : Db S) (table : String) (records : Nat) (choice : Choice) (worker : Int) :
    Act S Tally :=
  workFrom db table choice worker records 0 ∅

theorem work_append (db : Db S) (table : String) (choice : Choice) (worker : Int)
    (l m : List Task) (tally : Tally) (s : S) :
    work db table choice worker (l ++ m) tally s =
      match work db table choice worker l tally s with
      | (.error h, s) => (.error h, s)
      | (.ok tally, s) => work db table choice worker m tally s := by
  induction l generalizing tally s with
  | nil => rfl
  | cons t l ih =>
    simp only [List.cons_append, work]
    split
    · rfl
    · exact ih ..

theorem workFrom_eq_work (db : Db S) (table : String) (choice : Choice) (worker : Int)
    (records record : Nat) (tally : Tally) :
    workFrom db table choice worker records record tally =
      work db table choice worker ((List.range' record records).flatMap tasks) tally := by
  funext s
  induction records generalizing record tally s with
  | zero => rfl
  | succ n ih =>
    simp only [List.range'_succ, List.flatMap_cons, work_append, workFrom]
    cases work db table choice worker (tasks record) tally s with
    | mk result s =>
      cases result with
      | error h => rfl
      | ok tally => exact ih ..

/-- A worker works through its plan. -/
theorem runWorker_eq_work (db : Db S) (table : String) (records : Nat) (choice : Choice)
    (worker : Int) :
    runWorker db table records choice worker =
      work db table choice worker (plan records) ∅ := by
  rw [runWorker, workFrom_eq_work, plan, List.range_eq_range']

/-- Starts every binding, also after one has failed; the first failure is the answer. -/
def startAll : List (Db S) → Act S Unit
  | [] => fun s => (.ok (), s)
  | db :: rest => fun s =>
    match db.start s with
    | (first, s) =>
      match startAll rest s with
      | (later, s) =>
        match first with
        | .error h => (.error h, s)
        | .ok () => (later, s)

/-- Stops the bindings in order, up to one that fails. -/
def stopAll : List (Db S) → Act S Unit
  | [] => fun s => (.ok (), s)
  | db :: rest => fun s =>
    match db.stop s with
    | (.error h, s) => (.error h, s)
    | (.ok (), s) => stopAll rest s

/-- Lets every worker finish or fail on its own. The tallies are merged in the order of the
workers, and of several failures the first in that order is the answer. -/
def workAll (table : String) (records : Nat) (choice : Choice) :
    Nat → List (Db S) → Tally → Act S Tally
  | _, [], totals => fun s => (.ok totals, s)
  | worker, db :: rest, totals => fun s =>
    match runWorker db table records choice worker s with
    | (.ok tally, s) => workAll table records choice (worker + 1) rest (Tally.merge totals tally) s
    | (.error h, s) =>
      match workAll table records choice (worker + 1) rest totals s with
      | (_, s) => (.error h, s)

/-- The whole run. The bindings are stopped however the work ends, and a failure to stop takes the
place of what came before. -/
def run (table : String) (records : Nat) (choice : Choice) (dbs : List (Db S)) : Act S Tally :=
  fun s =>
    let (result, s) :=
      match startAll dbs s with
      | (.error h, s) => (.error h, s)
      | (.ok (), s) => workAll table records choice 0 dbs ∅ s
    match stopAll dbs s with
    | (.error h, s) => (.error h, s)
    | (.ok (), s) => (result, s)

/-- Outcomes by operation and actual status; those that agree in both keep their order. -/
def ordered (t : Tally) : List (Outcome × Nat) :=
  t.entries.mergeSort fun a b =>
    decide (a.1.action.name < b.1.action.name) ||
      (a.1.action.name == b.1.action.name && decide (a.1.actual.name ≤ b.1.actual.name))

def line (logger : String) (o : Outcome) (count : Nat) : Log.Entry :=
  let counted := s!"{o.action.name}: {count} x {o.actual.name}"
  if o.isExpected then { level := .info, logger, message := counted }
  else
    { level := .warning, logger, message := counted ++ s!" (expected {o.expected.name})" }

def summary (logger : String) (t : Tally) : List Log.Entry :=
  (ordered t).map fun (o, count) => line logger o count

def succeeded (t : Tally) : Bool := t.keys.all Outcome.isExpected

/-- Names `field0`, `field1`, … for values that are given by position. -/
def fields (count : Nat) (value : Nat → String) : Fields :=
  .ofList ((List.range count).map fun i => (s!"field{i}", value i))

def alphabet : String := "abcdefghijklmnopqrstuvwxyzABCDEFGHIJKLMNOPQRSTUVWXYZ0123456789"

/-- More letters than this cannot be asked for. -/
def maxLetters : Nat := 0x7fffffffffffffff

/-- A text of letters and digits, each picked by a number; one that cannot be asked for is empty. -/
def letters (length : Nat) (pick : Nat → Nat) : String :=
  let all := alphabet.toList.toArray
  let length := if length ≤ maxLetters then length else 0
  String.ofList ((List.range length).map fun i => all.getD (pick i % all.size) 'a')

/-- A binding with fields of the given length to write. If there can be no such fields, a write
fails before the binding is asked. -/
def withFields (length : Nat) (db : Db S) : Db S :=
  let refuse : Act S Status := fun s => (.error (.failure .fieldTooLong), s)
  if length ≤ maxLetters then db
  else { db with insert := fun _ _ _ => refuse, update := fun _ _ _ => refuse }

/-- What a run reports: whether everything came out as expected, and the lines of its summary. -/
structure Report where
  succeeded : Bool
  lines : List Log.Entry

def Tally.report (logger : String) (t : Tally) : Report where
  succeeded := succeeded t
  lines := summary logger t

def reported (logger : String) (p : Except Halt Tally × S) : Except Halt Report × S :=
  (p.1.map (Tally.report logger), p.2)

/-- Runs the workload with the given bindings, and reports on it. -/
def runBindings (logger table : String) (records : Nat) (choice : Choice) (dbs : List (Db S)) :
    Act S Report := fun s => reported logger (run table records choice dbs s)

variable {σ : Type}

/-- The bindings of a crew, as the workload drives them. -/
def bindings (b : Backend σ) (settings : Settings) : List (Db (Crew σ)) :=
  (List.range settings.threads).map fun seat => withFields settings.fieldLength (Crew.db b seat)

/-- The answer of a run, with its report in the log. -/
def logged (p : Except Halt Report × Crew σ) : Except Halt Bool × Crew σ :=
  match p with
  | (.error h, w) => (.error h, w)
  | (.ok report, w) =>
    (.ok report.succeeded,
      { w with env := { w.env with log := w.env.log ++ report.lines.toArray } })

/-- Runs the workload of the given settings with a new crew, and logs the summary. -/
def runCrew (b : Backend σ) (logger : String) (settings : Settings) (choice : Choice) :
    Act (Crew σ) Bool := fun w =>
  logged (runBindings logger settings.table settings.recordCount choice (bindings b settings)
    (w.recruit settings.threads settings.properties))

end Smoke

end StoreBinding
