import StoreBinding.Backend
import StoreBinding.Cluster.Service
import StoreBinding.Durability.Counts

/-!
The cluster service as a backend. Connecting opens a cluster, waits for it and takes the
default collection of one bucket; if a failure comes in between, the cluster is closed
again. An absent document is an answer to a read and an error of a write.
-/
namespace StoreBinding.Cluster

def logger : String := "couchbench.adapters.couchbase.connection"

def readyTimeout : Duration := .ofSeconds 10 (by decide)

/-- Whether a text occurs in another. -/
def occursIn (part : List Char) : List Char → Bool
  | [] => part.isEmpty
  | c :: rest => part.isPrefixOf (c :: rest) || occursIn part rest

/-- What follows the scheme of an address. -/
def schemeMark : String := "://"

def usualScheme : String := "couchbase://"

/-- The address of a host. One that names its scheme is an address already. -/
def address (host : String) : String :=
  if occursIn schemeMark.toList host.toList then host else usualScheme ++ host

/-- The address of a host that may be no text. A container that holds the mark of a scheme passes
for an address; one that does not is shown behind the usual scheme. -/
def addressOf (host : Value) : Except Failure Value :=
  let unlessMarked := fun (marked : Bool) =>
    if marked then .ok host
    else
      match host.shown with
      | .ok s => .ok (.text (usualScheme ++ s))
      | .error u => .error (.unwritable u)
  match host with
  | .text s => .ok (.text (address s))
  | .list items | .tuple items => unlessMarked (items.any (·.isText schemeMark))
  | .mapping entries => unlessMarked (entries.any (·.1 == schemeMark))
  | .bytes _ | .byteArray _ => .error .bytesHost
  | v => .error (.unsearchableHost v.kindName)

/-- The service sizes its connection pool itself, so any other width is only mentioned. -/
def noteEndpoints (r : ConnectionRequest) (e : Env Service) : Except Failure (Env Service) :=
  if r.kvEndpoints.wholeNumber? = some 1 then .ok e
  else
    match r.kvEndpoints.shown with
    | .ok n => .ok (e.note .info logger s!"kvEndpoints={n} is not configurable, ignoring")
    | .error u => .error (.unwritable u)

/-- Waits for an open cluster and takes the default collection of a bucket. -/
def openCollection (bucket : Value) : Act Service Unit := fun s =>
  match Service.waitUntilReady readyTimeout s with
  | (.error h, s) => (.error h, s)
  | (.ok (), s) =>
    match Service.openBucket bucket s with
    | (.error h, s) => (.error h, s)
    | (.ok (), s) => Service.defaultCollection s

/-- A credential that the service takes: it must be a text. -/
def credential (name : String) (v : Value) : Except Failure String :=
  match v with
  | .text s => .ok s
  | _ =>
    .error (.fault { kind := .invalidArgument, text := some s!"The {name} must be a str." })

/-- What a cluster is opened with, besides its address and what is passed on unseen. -/
structure Access where
  who : Credentials
  kvTimeout : Duration

/-- Username and password are looked at first, and then the timeout. -/
def access (r : ConnectionRequest) : Except Failure Access := do
  let username ← credential "username" r.username
  let password ← credential "password" r.password
  match r.kvTimeout with
  | .ok kvTimeout => return { who := { username, password }, kvTimeout }
  | .error u => throw (.duration u)

/-- Opens a cluster and its collection. After a failure the cluster is closed, and a failing close
replaces the failure; an interrupt leaves the cluster open. -/
def openWith (address : Value) (a : Access) (r : ConnectionRequest) : Act Service Handle :=
  fun s =>
  match Service.openCluster address a.who a.kvTimeout r.enableMutationTokens s with
  | (.error h, s) => (.error h, s)
  | (.ok cluster, s) =>
    match openCollection r.bucket s with
    | (.ok (), s) => (.ok cluster, s)
    | (.error (.interrupt t), s) => (.error (.interrupt t), s)
    | (.error (.failure f), s) =>
      match Service.close cluster s with
      | (.ok (), s) => (.error (.failure f), s)
      | (.error h, s) => (.error h, s)

/-- Mentions what was opened; a place that has no text spoils the end of the opening. -/
def noteOpened (r : ConnectionRequest) (cluster : Handle) (e : Env Service) :
    Except Halt Handle × Env Service :=
  match r.place with
  | .error u => (.error (.failure (.unwritable u)), e)
  | .ok (host, bucket) =>
    (.ok cluster, e.note .info logger s!"Opened bucket {bucket} on {host}")

def connect (r : ConnectionRequest) : Act (Env Service) Handle := fun e =>
  match access r with
  | .error f => (.error (.failure f), e)
  | .ok access =>
    match noteEndpoints r e with
    | .error f => (.error (.failure f), e)
    | .ok e =>
      match addressOf r.host with
      | .error f => (.error (.failure f), e)
      | .ok address =>
        match openWith address access r e.store with
        | (.error h, store) => (.error h, { e with store })
        | (.ok cluster, store) => noteOpened r cluster { e with store }

def close (h : Handle) : Act (Env Service) Unit := fun e =>
  match Service.close h e.store with
  | (r, store) => (r, { e with store })

/-- A timeout of zero is no timeout. -/
def options (timeout : Duration) (durability : Option Requirement := none) : RequestOptions :=
  { timeout := if timeout.isZero then none else some timeout, durability }

/-- What a write asks for; counts that are no policy, and what else is none, are refused. -/
def requirement? (asked : Asked) : Except Failure (Option Requirement) :=
  asked.toPolicy.map Policy.requirement?

def get (id : String) (timeout : Duration) : Act Service (Option Content) := fun s =>
  match Service.get id (options timeout) s with
  | (.ok c, s) => (.ok (some c), s)
  | (.error (.failure (.fault f)), s) =>
    if f.kind = .documentNotFound then (.ok none, s) else (.error (.failure (.fault f)), s)
  | (.error h, s) => (.error h, s)

/-- Makes a write with the options that a policy asks for. A policy that is none is refused before
any call. -/
def write (asked : Asked) (timeout : Duration) (put : RequestOptions → Act Service Unit) :
    Act Service Unit := fun s =>
  match requirement? asked with
  | .error f => (.error (.failure f), s)
  | .ok durability => put (options timeout durability) s

def insert (id : String) (c : Content) (asked : Asked) (timeout : Duration) : Act Service Unit :=
  write asked timeout (Service.insert id c)

def replace (id : String) (c : Content) (asked : Asked) (timeout : Duration) : Act Service Unit :=
  write asked timeout (Service.replace id c)

def remove (id : String) (asked : Asked) (timeout : Duration) : Act Service Unit :=
  write asked timeout (Service.remove id)

def backend : Backend Service where
  connect := connect
  close := close
  get := fun _ => get
  insert := fun _ id c o => insert id c (.policy o.durability) o.timeout
  replace := fun _ id c o => replace id c (.policy o.durability) o.timeout
  remove := fun _ id o => remove id (.policy o.durability) o.timeout

end StoreBinding.Cluster
