import StoreBinding.OrderedMap
import StoreBinding.Params
import StoreBinding.Property

/-!
Validation of a property mapping. Text properties accept text and UTF-8 bytes; number
properties accept integers and their numerals. Every property is looked at, in order, and
all that is wrong is reported. Once a durability level is asked for, under either spelling
and with whatever value, the counts are dropped unseen.
-/
namespace StoreBinding

/-- A property mapping as it is handed in. -/
abbrev RawProperties := OrderedMap String Value

structure Properties where
  host : String := "127.0.0.1"
  bucket : String := "ycsb"
  username : String := "Administrator"
  password : String := "password"
  kvTimeoutMillis : Int := 10000
  kvEndpoints : Int := 1
  durability : Option Int := none
  persistTo : Int := 0
  replicateTo : Int := 0
deriving DecidableEq, Repr

/-- What is wrong with one value. -/
inductive Problem
  | notText
  | notUtf8
  | wrongType
  | unreadable (u : Numeral.Unreadable)
  | notPositive
  | belowOne
deriving DecidableEq, Repr

namespace Problem

def kind : Problem → String
  | notText => "string_type"
  | notUtf8 => "string_unicode"
  | wrongType => "int_type"
  | _ => "value_error"

def message : Problem → String
  | notText => "Input should be a valid string"
  | notUtf8 => "Input should be a valid string, unable to parse raw data as a unicode string"
  | wrongType => "Input should be a valid integer"
  | unreadable .notAnInteger => "Value error, must be an integer"
  | unreadable (.tooLong digits) =>
    s!"Value error, Exceeds the limit ({Numeral.digitLimit} digits) for integer string " ++
      s!"conversion: value has {digits} digits; " ++
      "use sys.set_int_max_str_digits() to increase the limit"
  | notPositive => "Value error, must be positive"
  | belowOne => "Value error, must be at least 1"

end Problem

/-- A problem together with the spelling under which the value was found. -/
structure Invalid where
  property : Property
  spelling : String
  problem : Problem
deriving DecidableEq, Repr

namespace Value

def readText : Value → Except Problem String
  | text s => .ok s
  | bytes b => (Text.Utf8.decode b).mapError fun _ => .notUtf8
  | byteArray b => (Text.Utf8.decode b).mapError fun _ => .notUtf8
  | _ => .error .notText

def readInt : Value → Except Problem Int
  | text s => (Numeral.read s).mapError .unreadable
  | int n => .ok n
  | _ => .error .wrongType

end Value

namespace Properties

/-- The counts that a durability level replaces. -/
def isCount (key : String) : Bool :=
  Property.bare key == Property.persistTo.name || Property.bare key == Property.replicateTo.name

def asksForLevel (m : RawProperties) : Bool :=
  m.keys.any fun key => Property.bare key == Property.durability.name

def inForce (m : RawProperties) : RawProperties :=
  if asksForLevel m then m.filterKeys fun key => !isCount key else m

/-- The value of a property with the spelling that gave it: the bare name is looked at only
when the qualified one is absent. -/
def effective? (m : RawProperties) (p : Property) : Option (String × Value) :=
  match m.get? p.key with
  | some v => some (p.key, v)
  | none => (m.get? p.name).map fun v => (p.name, v)

/-- Reads one property, or its default where it is absent. -/
def field {α : Type} (m : RawProperties) (p : Property) (default : α)
    (read : Value → Except Problem α) : Except Invalid α :=
  match effective? m p with
  | none => .ok default
  | some (spelling, v) => (read v).mapError fun problem => ⟨p, spelling, problem⟩

def readPositive (v : Value) : Except Problem Int :=
  match v.readInt with
  | .ok n => if n ≤ 0 then .error .notPositive else .ok n
  | .error e => .error e

def readAtLeastOne (v : Value) : Except Problem Int :=
  match v.readInt with
  | .ok n => if n < 1 then .error .belowOne else .ok n
  | .error e => .error e

def readLevel : Value → Except Problem (Option Int)
  | .null => .ok none
  | v => v.readInt.map some

def host? (m : RawProperties) : Except Invalid String := field m .host "127.0.0.1" Value.readText

def bucket? (m : RawProperties) : Except Invalid String := field m .bucket "ycsb" Value.readText

def username? (m : RawProperties) : Except Invalid String :=
  field m .username "Administrator" Value.readText

def password? (m : RawProperties) : Except Invalid String :=
  field m .password "password" Value.readText

def kvTimeoutMillis? (m : RawProperties) : Except Invalid Int :=
  field m .kvTimeoutMillis 10000 readPositive

def kvEndpoints? (m : RawProperties) : Except Invalid Int := field m .kvEndpoints 1 readAtLeastOne

def durability? (m : RawProperties) : Except Invalid (Option Int) :=
  field m .durability none readLevel

def persistTo? (m : RawProperties) : Except Invalid Int := field m .persistTo 0 Value.readInt

def replicateTo? (m : RawProperties) : Except Invalid Int := field m .replicateTo 0 Value.readInt

/-- The properties of a mapping, or the first thing that is wrong with it. -/
def read (given : RawProperties) : Except Invalid Properties := do
  let m := inForce given
  let host ← host? m
  let bucket ← bucket? m
  let username ← username? m
  let password ← password? m
  let kvTimeoutMillis ← kvTimeoutMillis? m
  let kvEndpoints ← kvEndpoints? m
  let durability ← durability? m
  let persistTo ← persistTo? m
  let replicateTo ← replicateTo? m
  return { host, bucket, username, password, kvTimeoutMillis, kvEndpoints, durability, persistTo,
           replicateTo }

/-- What is wrong with a field, nothing or one thing. -/
def problem {α : Type} : Except Invalid α → List Invalid
  | .ok _ => []
  | .error e => [e]

/-- Everything that is wrong with a mapping, in the order of the properties. -/
def problems (given : RawProperties) : List Invalid :=
  let m := inForce given
  problem (host? m) ++ problem (bucket? m) ++ problem (username? m) ++ problem (password? m) ++
    problem (kvTimeoutMillis? m) ++ problem (kvEndpoints? m) ++ problem (durability? m) ++
    problem (persistTo? m) ++ problem (replicateTo? m)

theorem head?_problems_of_read {given : RawProperties} {e : Invalid} (h : read given = .error e) :
    (problems given).head? = some e := by
  simp only [read, bind, Except.bind, pure, Except.pure] at h
  simp only [problems]
  repeat' split at h
  all_goals simp_all [problem]

theorem problems_eq_nil_iff {given : RawProperties} :
    problems given = [] ↔ ∃ p, read given = .ok p := by
  cases h : read given with
  | error e =>
    have := head?_problems_of_read h
    constructor
    · intro hn
      rw [hn] at this
      cases this
    · rintro ⟨p, hp⟩
      cases hp
  | ok p =>
    simp only [read, bind, Except.bind, pure, Except.pure] at h
    simp only [problems]
    refine ⟨fun _ => ⟨p, rfl⟩, fun _ => ?_⟩
    repeat' split at h
    all_goals simp_all [problem]

def params (p : Properties) : Params :=
  { host := p.host
    bucket := p.bucket
    username := p.username
    password := p.password
    kvTimeoutMillis := p.kvTimeoutMillis
    kvEndpoints := p.kvEndpoints }

/-- The properties as assignments, without the password. -/
def assignments (p : Properties) : Except Unwritable (List String) := do
  let level ← match p.durability with
    | none => Value.literal .null
    | some n => Value.numeral n
  let millis ← Value.numeral p.kvTimeoutMillis
  let endpoints ← Value.numeral p.kvEndpoints
  let persistTo ← Value.numeral p.persistTo
  let replicateTo ← Value.numeral p.replicateTo
  return [
    "host=" ++ Text.Quoted.text p.host,
    "bucket=" ++ Text.Quoted.text p.bucket,
    "username=" ++ Text.Quoted.text p.username,
    "kv_timeout_millis=" ++ millis,
    "kv_endpoints=" ++ endpoints,
    "durability=" ++ level,
    "persist_to=" ++ persistTo,
    "replicate_to=" ++ replicateTo]

def literal (p : Properties) : Except Unwritable String :=
  p.assignments.map fun parts => "CouchbaseProperties(" ++ ", ".intercalate parts ++ ")"

def summary (p : Properties) : Except Unwritable String :=
  p.assignments.map fun parts => " ".intercalate parts

end Properties

end StoreBinding
