import StoreBinding.Cluster.Requirement
import StoreBinding.Memory

/-!
The cluster service as a client library shows it: a cluster is opened, awaited, asked for a
bucket and its collection, and closed; documents are requested one at a time with options.
Every call is recorded. A standing fault of a place comes before the script is asked, and a
cluster whose opening fails does not exist.
-/
namespace StoreBinding

/-- Where a standing fault can sit. -/
inductive Place
  | cluster
  | ready
  | bucket
  | collection
  | close
  | request (op : Operation)
deriving DecidableEq, Repr

structure RequestOptions where
  timeout : Option Duration
  durability : Option Requirement := none
deriving DecidableEq, Repr

structure Credentials where
  username : String
  password : String
deriving DecidableEq, Repr

inductive ServiceCall
  | cluster (address : Value) (who : Credentials) (kvTimeout : Duration) (mutationTokens : Value)
  | ready (timeout : Duration)
  | bucket (name : Value)
  | collection
  | close (h : Handle)
  | request (op : Operation) (id : String) (options : RequestOptions) (content : Option Content)

structure Service where
  documents : Documents := ∅
  /-- how often each cluster was closed -/
  closes : Array Nat := #[]
  calls : Array ServiceCall := #[]
  script : FaultScript := {}
  faults : OrderedMap Place Halt := ∅

namespace Service

def record (s : Service) (c : ServiceCall) : Service := { s with calls := s.calls.push c }

/-- Records a call and gives the fault that stands at its place. -/
def attempt (place : Place) (c : ServiceCall) : Act Service Unit := fun s =>
  match s.faults.get? place with
  | some h => (.error h, s.record c)
  | none => (.ok (), s.record c)

/-- What is wrong when an option that a cluster needs is not given. -/
def missingOption (name : String) : Halt := .failure (.fault { kind := .key, text := some name })

/-- Opens a cluster. An option that is null counts as not given; the options are read before the
call is recorded, so without the one for mutation tokens there is no call. -/
def openCluster (address : Value) (who : Credentials) (kvTimeout : Duration)
    (mutationTokens : Value) : Act Service Handle := fun s =>
  match mutationTokens with
  | .null => (.error (missingOption "enable_mutation_tokens"), s)
  | tokens =>
    match attempt .cluster (.cluster address who kvTimeout tokens) s with
    | (.error h, s) => (.error h, s)
    | (.ok (), s) => (.ok s.closes.size, { s with closes := s.closes.push 0 })

def waitUntilReady (timeout : Duration) : Act Service Unit := attempt .ready (.ready timeout)

def openBucket (name : Value) : Act Service Unit := attempt .bucket (.bucket name)

def defaultCollection : Act Service Unit := attempt .collection .collection

/-- A close that fails has closed the cluster all the same. -/
def close (h : Handle) : Act Service Unit := fun s =>
  attempt .close (.close h) { s with closes := s.closes.modify h (· + 1) }

/-- Records a request, then looks for a standing fault, then asks the script. -/
def request (op : Operation) (id : String) (o : RequestOptions) (c : Option Content) :
    Act Service (Option FaultAction) := fun s =>
  match attempt (.request op) (.request op id o c) s with
  | (.error h, s) => (.error h, s)
  | (.ok (), s) =>
    let (action, script) := s.script.consult op id
    match action with
    | some (.raise h) => (.error h, { s with script })
    | _ => (.ok action, { s with script })

def notFound : Halt := .failure (.fault { kind := .documentNotFound })

def alreadyThere : Halt := .failure (.fault { kind := .documentExists })

def get (id : String) (o : RequestOptions) : Act Service Content := fun s =>
  match request .get id o none s with
  | (.error h, s) => (.error h, s)
  | (.ok (some .absent), s) => (.error notFound, s)
  | (.ok _, s) =>
    match s.documents.get? id with
    | some c => (.ok c, s)
    | none => (.error notFound, s)

def insert (id : String) (c : Content) (o : RequestOptions) : Act Service Unit := fun s =>
  match request .insert id o (some c) s with
  | (.error h, s) => (.error h, s)
  | (.ok (some .skip), s) => (.ok (), s)
  | (.ok _, s) =>
    if s.documents.contains id then (.error alreadyThere, s)
    else (.ok (), { s with documents := s.documents.insert id c })

def replace (id : String) (c : Content) (o : RequestOptions) : Act Service Unit := fun s =>
  match request .replace id o (some c) s with
  | (.error h, s) => (.error h, s)
  | (.ok (some .skip), s) => (.ok (), s)
  | (.ok _, s) =>
    if s.documents.contains id then (.ok (), { s with documents := s.documents.insert id c })
    else (.error notFound, s)

def remove (id : String) (o : RequestOptions) : Act Service Unit := fun s =>
  match request .remove id o none s with
  | (.error h, s) => (.error h, s)
  | (.ok (some .skip), s) => (.ok (), s)
  | (.ok _, s) =>
    if s.documents.contains id then (.ok (), { s with documents := s.documents.erase id })
    else (.error notFound, s)

end Service

end StoreBinding
