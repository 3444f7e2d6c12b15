import StoreBinding.Manager

/-!
The binding of one worker. It resolves its configuration once, holds at most one reference
to the shared connection, and turns every failure of an operation into a status. Nothing
but an interrupt leaves an operation early.
-/
namespace StoreBinding

inductive Status
  | ok
  | notFound
  | error
  | notImplemented
deriving DecidableEq, Repr

def Status.name : Status → String
  | ok => "OK"
  | notFound => "NOT_FOUND"
  | error => "ERROR"
  | notImplemented => "NOT_IMPLEMENTED"

/-- A configuration together with the options that its operations use. -/
structure Resolved where
  config : Config
  options : WriteOptions
deriving DecidableEq, Repr

structure Client where
  properties : RawProperties
  resolved : Option Resolved := none
  holds : Bool := false

namespace Client

variable {σ : Type}

def logger : String := "couchbench.core.client"

def config (c : Client) : Option Config := c.resolved.map Resolved.config

/-- Resolves properties and the timeout; either may be refused. -/
def resolve (given : RawProperties) : Except Failure Resolved :=
  match Config.resolve given with
  | .error e => .error (.config e)
  | .ok config =>
    match config.writeOptions with
    | .error e => .error (.duration (.overflow e))
    | .ok options => .ok { config, options }

def announcement (c : Config) : String :=
  s!"Durability {c.durability.describe}, kv timeout {c.kvTimeoutMillis}ms"

/-- Resolves the configuration unless that is done. -/
def prepare (c : Client) (e : Env σ) : Except Halt Resolved × Client × Env σ :=
  match c.resolved with
  | some r => (.ok r, c, e)
  | none =>
    match resolve c.properties with
    | .error f => (.error (.failure f), c, e)
    | .ok r => (.ok r, { c with resolved := some r }, e.note .info logger (announcement r.config))

/-- Makes the binding ready: resolves the configuration and takes a reference, each at most
once. -/
def start (b : Backend σ) (c : Client) (m : Manager) (e : Env σ) :
    Except Halt Unit × Client × Manager × Env σ :=
  match c.prepare e with
  | (.error h, c, e) => (.error h, c, m, e)
  | (.ok r, c, e) =>
    if c.holds then (.ok (), c, m, e)
    else
      match m.acquire b r.config.connection.request e with
      | (.error h, m, e) => (.error h, c, m, e)
      | (.ok _, m, e) => (.ok (), { c with holds := true }, m, e)

/-- Gives the reference back, if the binding holds one. -/
def stop (b : Backend σ) (c : Client) (m : Manager) (e : Env σ) :
    Except Halt Unit × Client × Manager × Env σ :=
  if c.holds then
    match m.release b e with
    | (r, m, e) => (r, { c with holds := false }, m, e)
  else (.ok (), c, m, e)

/-- What a read gives: a status, and fields only if it is `ok`. -/
structure ReadResult where
  status : Status
  fields : Fields := ∅

def read (b : Backend σ) (c : Client) (m : Manager) (table key : String) (names : List String) :
    Act σ ReadResult := fun s =>
  match m.live, c.resolved with
  | some h, some r =>
    match b.get h (documentId table key) r.options.timeout s with
    | (.ok none, s) => (.ok { status := .notFound }, s)
    | (.ok (some content), s) =>
      match content.project names with
      | .ok fields => (.ok { status := .ok, fields }, s)
      | .error _ => (.ok { status := .error }, s)
    | (.error (.failure _), s) => (.ok { status := .error }, s)
    | (.error (.interrupt t), s) => (.error (.interrupt t), s)
  | _, _ => (.ok { status := .error }, s)

/-- A read leaves the store as the attempt to get the document leaves it. -/
theorem read_snd {c : Client} {m : Manager} {h : Handle} {r : Resolved} (hlive : m.live = some h)
    (hresolved : c.resolved = some r) (b : Backend σ) (table key : String) (names : List String)
    (s : σ) :
    (c.read b m table key names s).2 = (b.get h (documentId table key) r.options.timeout s).2 := by
  simp only [read, hlive, hresolved]
  split
  · next heq => rw [heq]
  · next heq =>
    rw [heq]
    split <;> rfl
  · next heq => rw [heq]
  · next heq => rw [heq]

/-- A finished write as a status. -/
def settle (r : Except Halt Unit × σ) : Except Halt Status × σ :=
  match r with
  | (.ok (), s) => (.ok .ok, s)
  | (.error (.failure _), s) => (.ok .error, s)
  | (.error (.interrupt t), s) => (.error (.interrupt t), s)

@[simp] theorem settle_snd (r : Except Halt Unit × σ) : (settle r).2 = r.2 := by
  unfold settle
  split <;> rfl

/-- Encodes the values and hands them to a write of the backend. -/
def write (put : Handle → String → Content → WriteOptions → Act σ Unit) (c : Client) (m : Manager)
    (table key : String) (values : Option Content) : Act σ Status := fun s =>
  match m.live, c.resolved, values.map Content.encode with
  | some h, some r, some (.ok fields) =>
    settle (put h (documentId table key) fields.content r.options s)
  | _, _, _ => (.ok .error, s)

def insert (b : Backend σ) := write b.insert

def update (b : Backend σ) := write b.replace

def delete (b : Backend σ) (c : Client) (m : Manager) (table key : String) : Act σ Status :=
  fun s =>
  match m.live, c.resolved with
  | some h, some r => settle (b.remove h (documentId table key) r.options s)
  | _, _ => (.ok .error, s)

/-- Range scans are not supported. -/
def scan : Status := .notImplemented

end Client

end StoreBinding
