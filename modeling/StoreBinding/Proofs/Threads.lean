import Mathlib.Algebra.GroupWithZero.Nat
import StoreBinding.Proofs.Calls
import StoreBinding.Proofs.Lifecycle

/-!
Bindings that share a manager, each driven by a thread of its own. A thread does one errand
after the other, and an errand takes several moves: the manager is acquired or released in one
move, and each change of the flag that says whether the binding holds a reference is a move,
as are the look-up of the connection for a call and the call on the store. Between two moves
of a thread all the others may move. Which errand a thread begins is left open, so that it
may depend on whatever happened before. Main statements: an errand whose moves have no others
in between is the whole step of its binding, and a call is made on the connection that was
looked up for it.
-/
namespace StoreBinding

variable {σ : Type} {b : Backend σ}

inductive Errand
  | start
  | stop
  | call (c : Call)

inductive Stage
  | idle
  /-- the configuration is there, the reference is not -/
  | acquiring (request : ConnectionRequest)
  /-- the manager has counted a reference that the binding does not know of yet -/
  | granted (h : Handle)
  /-- the binding has given up a reference that the manager still counts -/
  | releasing
  | calling (c : Call) (seen : Option Handle)

/-- A binding and what its thread is at. It is ready from the return of a start that succeeded to
the beginning of the next stop; nothing that happens depends on that. -/
structure Thread where
  client : Client
  stage : Stage := .idle
  ready : Bool := false

/-- What a move of a thread leaves, and the connection that it came back with, if it took or kept a
reference. -/
structure Moved (σ : Type) where
  thread : Thread
  manager : Manager
  env : Env σ
  handed : Option Handle := none

namespace Thread

def counts (t : Thread) : Bool :=
  match t.stage with
  | .granted _ | .releasing => true
  | _ => t.client.holds

def begin (t : Thread) (errand : Errand) (m : Manager) (e : Env σ) : Moved σ :=
  match t.stage, errand with
  | .idle, .start =>
    match t.client.prepare e with
    | (.error _, client, env) => { thread := { t with client }, manager := m, env }
    | (.ok r, client, env) =>
      -- the manager is not asked again; the reference is to the connection that is live
      if client.holds then
        { thread := { t with client, ready := true }, manager := m, env, handed := m.live }
      else
        { thread := { t with client, stage := .acquiring r.config.connection.request }
          manager := m
          env }
  | .idle, .stop =>
    if t.client.holds then
      { thread := { client := { t.client with holds := false }, stage := .releasing }
        manager := m
        env := e }
    else { thread := { t with ready := false }, manager := m, env := e }
  | .idle, .call c => { thread := { t with stage := .calling c m.live }, manager := m, env := e }
  | _, _ => { thread := t, manager := m, env := e }

def proceed (b : Backend σ) (t : Thread) (m : Manager) (e : Env σ) : Moved σ :=
  match t.stage with
  | .idle => { thread := t, manager := m, env := e }
  | .acquiring request =>
    match m.acquire b request e with
    | (.error _, manager, env) => { thread := { t with stage := .idle }, manager, env }
    | (.ok h, manager, env) =>
      { thread := { t with stage := .granted h }, manager, env, handed := some h }
  | .granted h =>
    { thread := { client := { t.client with holds := true }, ready := true }
      manager := m
      env := e
      handed := some h }
  | .releasing =>
    match m.release b e with
    | (_, manager, env) => { thread := { t with stage := .idle }, manager, env }
  | .calling c seen =>
    -- a call reads nothing of a manager but the connection
    match c.run b t.client { live := seen } e.store with
    | (_, store) => { thread := { t with stage := .idle }, manager := m, env := { e with store } }

end Thread

namespace Moved

def next (b : Backend σ) (d : Moved σ) : Moved σ := d.thread.proceed b d.manager d.env

def left (d : Moved σ) : Client × Manager × Env σ := (d.thread.client, d.manager, d.env)

end Moved

namespace Thread

/-- Begun and carried on without a break, a start is the start of the binding. -/
theorem left_start (b : Backend σ) {t : Thread} (hidle : t.stage = .idle) (m : Manager)
    (e : Env σ) :
    (((t.begin .start m e).next b).next b).left = (t.client.start b m e).2 := by
  simp only [begin, hidle, Client.start]
  cases t.client.prepare e with
  | mk prepared rest =>
    obtain ⟨c, e⟩ := rest
    cases prepared with
    | error x => rfl
    | ok r =>
      obtain ⟨properties, resolved, holds⟩ := c
      cases holds with
      | true => rfl
      | false =>
        simp only [Moved.next, proceed, Bool.false_eq_true, if_false]
        cases m.acquire b r.config.connection.request e with
        | mk acquired rest => cases acquired <;> rfl

theorem left_stop (b : Backend σ) {t : Thread} (hidle : t.stage = .idle) (m : Manager)
    (e : Env σ) :
    ((t.begin .stop m e).next b).left = (t.client.stop b m e).2 := by
  simp only [begin, hidle, Client.stop]
  cases t.client.holds <;> rfl

theorem left_call (b : Backend σ) {t : Thread} (hidle : t.stage = .idle) (c : Call) (m : Manager)
    (e : Env σ) :
    ((t.begin (.call c) m e).next b).left =
      (t.client, m, { e with store := (c.run b t.client m e.store).2 }) := by
  simp only [begin, hidle]
  cases c <;> rfl

end Thread

def MemoryCall.on (b : Backend σ) (h : Handle) (s : σ) : MemoryCall → σ
  | get id t => (b.get h id t s).2
  | insert id c o => (b.insert h id c o s).2
  | replace id c o => (b.replace h id c o s).2
  | remove id o => (b.remove h id o s).2

/-- A call leaves the store as the one call leaves it that it leads to. -/
theorem Call.run_snd {c : Client} {m : Manager} {h : Handle} {r : Resolved}
    (hlive : m.live = some h) (hresolved : c.resolved = some r) (call : Call) (s : σ) :
    (call.run b c m s).2 = ((call.request? r.options).map (MemoryCall.on b h s)).getD s := by
  cases call with
  | read t k names => exact Client.read_snd hlive hresolved b t k names s
  | insert t k values =>
    rw [run_insert hlive hresolved]
    simp only [request?]
    cases encoded? values with
    | none => rfl
    | some fields => exact Client.settle_snd _
  | update t k values =>
    rw [run_update hlive hresolved]
    simp only [request?]
    cases encoded? values with
    | none => rfl
    | some fields => exact Client.settle_snd _
  | delete t k =>
    rw [run_delete hlive hresolved]
    exact Client.settle_snd _

theorem Call.closes_run (a : b.Account) (call : Call) (c : Client) (m : Manager) (s : σ) :
    a.closes (call.run b c m s).2 = a.closes s := by
  cases call with
  | read t k names => exact Client.closes_read a c m t k names s
  | insert t k values => exact Client.closes_write a a.insert c m t k values s
  | update t k values => exact Client.closes_write a a.replace c m t k values s
  | delete t k => exact Client.closes_delete a c m t k s

/-- An acquisition or a start that came back with a connection, and how often connections had been
closed by then. -/
structure Handout where
  closes : Nat
  handle : Handle
deriving DecidableEq, Repr

structure Pool (σ : Type) where
  env : Env σ
  manager : Manager := {}
  threads : List Thread
  handouts : List Handout := []

inductive Move
  | begin (errand : Errand)
  | proceed

def Thread.move (b : Backend σ) (t : Thread) : Move → Manager → Env σ → Moved σ
  | .begin errand => t.begin errand
  | .proceed => t.proceed b

namespace Pool

def after (a : b.Account) (s : Pool σ) (seat : Nat) (d : Moved σ) : Pool σ where
  env := d.env
  manager := d.manager
  threads := s.threads.set seat d.thread
  handouts :=
    match d.handed with
    | none => s.handouts
    | some handle => { closes := (a.closes d.env.store).sum, handle } :: s.handouts

def step (a : b.Account) (seat : Nat) (move : Move) (s : Pool σ) : Pool σ :=
  match s.threads[seat]? with
  | none => s
  | some t => s.after a seat (t.move b move s.manager s.env)

def init (env : Env σ) (properties : List RawProperties) : Pool σ where
  env
  threads := properties.map fun properties => { client := { properties } }

/-- What can come of any number of bindings, each with a thread of its own. No connection is open
at first, and the store may change at any time as long as it leaves the connections alone. -/
inductive Reachable (a : b.Account) : Pool σ → Prop
  | init {env : Env σ} (closed : ∀ n ∈ a.closes env.store, n ≠ 0)
      (properties : List RawProperties) : Reachable a (init env properties)
  | step {s : Pool σ} (hs : Reachable a s) (seat : Nat) (move : Move) :
      Reachable a (s.step a seat move)
  | disturb {s : Pool σ} (hs : Reachable a s) (env : Env σ)
      (h : a.closes env.store = a.closes s.env.store) : Reachable a { s with env }

def run (a : b.Account) (moves : List (Nat × Move)) (s : Pool σ) : Pool σ :=
  moves.foldl (fun s (seat, move) => s.step a seat move) s

theorem Reachable.run {a : b.Account} {s : Pool σ} (hs : Reachable a s)
    (moves : List (Nat × Move)) : Reachable a (s.run a moves) := by
  induction moves generalizing s with
  | nil => exact hs
  | cons m rest ih => exact ih (hs.step m.1 m.2)

def left (s : Pool σ) (seat : Nat) : Option (Client × Manager × Env σ) :=
  s.threads[seat]?.map fun t => (t.client, s.manager, s.env)

structure At (s : Pool σ) (seat : Nat) (d : Moved σ) : Prop where
  thread : s.threads[seat]? = some d.thread
  manager : s.manager = d.manager
  env : s.env = d.env

section

variable (a : b.Account) {s : Pool σ} {seat : Nat} {t : Thread}

theorem at_step (hat : s.threads[seat]? = some t) (move : Move) :
    (s.step a seat move).At seat (t.move b move s.manager s.env) := by
  unfold step
  rw [hat]
  exact ⟨List.getElem?_set_self (List.getElem?_eq_some_iff.mp hat).1, rfl, rfl⟩

theorem At.next {d : Moved σ} (h : s.At seat d) :
    (s.step a seat .proceed).At seat (d.next b) := by
  have hnext := at_step a h.thread .proceed
  rw [h.manager, h.env] at hnext
  exact hnext

theorem At.left_eq {d : Moved σ} (h : s.At seat d) : s.left seat = some d.left := by
  rw [left, h.thread, h.manager, h.env]
  rfl

theorem left_run_start (hat : s.threads[seat]? = some t) (hidle : t.stage = .idle) :
    (s.run a [(seat, .begin .start), (seat, .proceed), (seat, .proceed)]).left seat =
      some (t.client.start b s.manager s.env).2 := by
  rw [← Thread.left_start b hidle]
  exact (((at_step a hat (.begin .start)).next a).next a).left_eq

theorem left_run_stop (hat : s.threads[seat]? = some t) (hidle : t.stage = .idle) :
    (s.run a [(seat, .begin .stop), (seat, .proceed)]).left seat =
      some (t.client.stop b s.manager s.env).2 := by
  rw [← Thread.left_stop b hidle]
  exact ((at_step a hat (.begin .stop)).next a).left_eq

theorem left_run_call (hat : s.threads[seat]? = some t) (hidle : t.stage = .idle) (call : Call) :
    (s.run a [(seat, .begin (.call call)), (seat, .proceed)]).left seat =
      some (t.client, s.manager,
        { s.env with store := (call.run b t.client s.manager s.env.store).2 }) := by
  rw [← Thread.left_call b hidle]
  exact ((at_step a hat (.begin (.call call))).next a).left_eq

end

def IsOpen (a : b.Account) (s : Pool σ) (h : Handle) : Prop :=
  (a.closes s.env.store)[h]? = some 0

end Pool

end StoreBinding
