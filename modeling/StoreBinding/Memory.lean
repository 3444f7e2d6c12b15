import StoreBinding.Backend
import StoreBinding.FaultScript

/-!
The in-memory store: one collection of documents shared by all its connections. Every call
is recorded before anything can go wrong with it. Faults come from a script, or stand until
they are lifted; a close that fails has closed the connection all the same.
-/
namespace StoreBinding

abbrev Documents := OrderedMap String Content

/-- The documents in the order of their ids. -/
def Documents.listing (d : Documents) : List (String × Content) :=
  d.entries.mergeSort fun a b => decide (a.1 ≤ b.1)

/-- A connection that was opened, and how often it was closed. -/
structure Connection where
  request : ConnectionRequest
  closes : Nat := 0

def Connection.isClosed (c : Connection) : Bool := 0 < c.closes

/-- Counts one more close of a connection. -/
def closeAt (connections : Array Connection) (h : Handle) : Array Connection :=
  connections.modify h fun c => { c with closes := c.closes + 1 }

inductive MemoryCall
  | get (id : String) (timeout : Duration)
  | insert (id : String) (content : Content) (options : WriteOptions)
  | replace (id : String) (content : Content) (options : WriteOptions)
  | remove (id : String) (options : WriteOptions)

structure Memory where
  documents : Documents := ∅
  connections : Array Connection := #[]
  calls : Array MemoryCall := #[]
  script : FaultScript := {}
  connectFault : Option Halt := none
  closeFault : Option Halt := none
  operationFault : Option Halt := none

namespace Memory

def record (m : Memory) (c : MemoryCall) : Memory := { m with calls := m.calls.push c }

/-- Asks the script and then the standing fault, which only a raised error and a skipped write
forestall. What the script wants is given with the state. -/
def attempt (op : Operation) (id : String) (m : Memory) :
    Except Halt (Option FaultAction) × Memory :=
  let (action, script) := m.script.consult op id
  let m := { m with script }
  match action, m.operationFault with
  | some (.raise h), _ => (.error h, m)
  | _, none => (.ok action, m)
  | _, some h => if action = some .skip ∧ op ≠ .get then (.ok action, m) else (.error h, m)

def connect (r : ConnectionRequest) : Act (Env Memory) Handle := fun e =>
  match e.store.connectFault with
  | some h => (.error h, e)
  | none =>
    (.ok e.store.connections.size,
      { e with store := { e.store with connections := e.store.connections.push { request := r } } })

def close (h : Handle) : Act (Env Memory) Unit := fun e =>
  let e := { e with store := { e.store with connections := closeAt e.store.connections h } }
  match e.store.closeFault with
  | some h => (.error h, e)
  | none => (.ok (), e)

def get (id : String) (timeout : Duration) : Act Memory (Option Content) := fun m =>
  match attempt .get id (m.record (.get id timeout)) with
  | (.error h, m) => (.error h, m)
  | (.ok (some .absent), m) => (.ok none, m)
  | (.ok _, m) => (.ok (m.documents.get? id), m)

def insert (id : String) (c : Content) (o : WriteOptions) : Act Memory Unit := fun m =>
  match attempt .insert id (m.record (.insert id c o)) with
  | (.error h, m) => (.error h, m)
  | (.ok (some .skip), m) => (.ok (), m)
  | (.ok _, m) =>
    if m.documents.contains id then (.error (.failure (.existing id)), m)
    else (.ok (), { m with documents := m.documents.insert id c })

def replace (id : String) (c : Content) (o : WriteOptions) : Act Memory Unit := fun m =>
  match attempt .replace id (m.record (.replace id c o)) with
  | (.error h, m) => (.error h, m)
  | (.ok (some .skip), m) => (.ok (), m)
  | (.ok _, m) =>
    if m.documents.contains id then (.ok (), { m with documents := m.documents.insert id c })
    else (.error (.failure (.missing id)), m)

def remove (id : String) (o : WriteOptions) : Act Memory Unit := fun m =>
  match attempt .remove id (m.record (.remove id o)) with
  | (.error h, m) => (.error h, m)
  | (.ok (some .skip), m) => (.ok (), m)
  | (.ok _, m) =>
    if m.documents.contains id then (.ok (), { m with documents := m.documents.erase id })
    else (.error (.failure (.missing id)), m)

/-- The store as a backend; its connections differ in nothing but their parameters. -/
def backend : Backend Memory where
  connect := connect
  close := close
  get := fun _ => get
  insert := fun _ => insert
  replace := fun _ => replace
  remove := fun _ => remove

end Memory

end StoreBinding
