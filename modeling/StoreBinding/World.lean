import StoreBinding.Client

/-!
Several bindings and managers over one store, driven step by step. A step may end early;
the state that it leaves is the state the next one starts from.
-/
namespace StoreBinding

/-- A binding and the name of the manager it shares. -/
structure Member where
  client : Client
  manager : String

structure World (σ : Type) where
  env : Env σ
  managers : Registry := ∅
  members : OrderedMap String Member := ∅

inductive Step
  | create (id manager : String) (properties : RawProperties)
  | start (id : String)
  | stop (id : String)
  | read (id table key : String) (names : List String)
  | insert (id table key : String) (values : Option Content)
  | update (id table key : String) (values : Option Content)
  | delete (id table key : String)
  | scan (id : String)
  | acquire (manager : String) (request : ConnectionRequest)
  | release (manager : String)
  | connection (manager : String)

inductive Reply
  | done
  | status (s : Status)
  | record (r : Client.ReadResult)
  | handle (h : Handle)

namespace World

variable {σ : Type}

def client? (w : World σ) (id : String) : Option Client := (w.members.get? id).map Member.client

/-- Runs an operation of a binding on the store. -/
def operate {α : Type} (w : World σ) (m : Member) (reply : α → Reply)
    (op : Client → Manager → Act σ α) : Except Halt Reply × World σ :=
  match op m.client (w.managers.ask m.manager) w.env.store with
  | (r, store) => (r.map reply, { w with env := { w.env with store } })

/-- Runs a change of a binding's life on its manager and the store. -/
def renew (w : World σ) (id : String) (m : Member)
    (change : Client → Manager → Env σ → Except Halt Unit × Client × Manager × Env σ) :
    Except Halt Reply × World σ :=
  match change m.client (w.managers.ask m.manager) w.env with
  | (r, client, manager, env) =>
    (r.map fun _ => .done,
      { w with
        env
        managers := w.managers.insert m.manager manager
        members := w.members.insert id { m with client } })

/-- Runs a change of a manager. -/
def manage {α : Type} (w : World σ) (name : String) (reply : α → Reply)
    (change : Manager → Env σ → Except Halt α × Manager × Env σ) : Except Halt Reply × World σ :=
  match change (w.managers.ask name) w.env with
  | (r, manager, env) =>
    (r.map reply, { w with env, managers := w.managers.insert name manager })

/-- What is wrong with the name of a binding that was never created. -/
def unknown (id : String) : Failure := .fault { kind := .key, text := some id }

/-- Makes one step. A step on a binding that was never created fails over its name. -/
def step (b : Backend σ) (s : Step) (w : World σ) : Except Halt Reply × World σ :=
  let member := fun (id : String) (act : Member → Except Halt Reply × World σ) =>
    match w.members.get? id with
    | none => (.error (.failure (unknown id)), w)
    | some m => act m
  match s with
  | .create id manager properties =>
    (.ok .done,
      { w with
        managers := w.managers.touch manager
        members := w.members.insert id { client := { properties }, manager } })
  | .start id => member id fun m => w.renew id m (Client.start b)
  | .stop id => member id fun m => w.renew id m (Client.stop b)
  | .read id table key names =>
    member id fun m => w.operate m .record fun c g => c.read b g table key names
  | .insert id table key values =>
    member id fun m => w.operate m .status fun c g => c.insert b g table key values
  | .update id table key values =>
    member id fun m => w.operate m .status fun c g => c.update b g table key values
  | .delete id table key =>
    member id fun m => w.operate m .status fun c g => c.delete b g table key
  | .scan id => member id fun _ => (.ok (.status Client.scan), w)
  | .acquire name request => w.manage name .handle (Manager.acquire b request)
  | .release name => w.manage name (fun _ => .done) (Manager.release b)
  | .connection name => w.manage name .handle fun g e => (g.connection, g, e)

/-- Acquires a manager several times at once. It lets its callers in one after the other, and those
that are refused have no part in the answer. -/
def acquireMany (b : Backend σ) (name : String) (r : ConnectionRequest) :
    Nat → World σ → List Handle × World σ
  | 0, w => ([], { w with managers := w.managers.touch name })
  | n + 1, w =>
    match w.step b (.acquire name r) with
    | (.ok (.handle h), w) =>
      let (handles, w) := acquireMany b name r n w
      (h :: handles, w)
    | (_, w) => acquireMany b name r n w

/-- The managers asked for so far, in the order of their names. -/
def listing (w : World σ) : List (String × Manager) :=
  w.managers.entries.mergeSort fun a b => decide (a.1 ≤ b.1)

end World

end StoreBinding
