import StoreBinding.Log
import StoreBinding.Properties
import StoreBinding.Settings.VariableFile
import StoreBinding.Settings.Size

/-!
Settings of the smoke command. The nine binding properties are passed on as they were
given; the workload and logging settings are read and checked. Variables come from the
process environment first and from an environment file second, and letter case in their
names does not count.
-/
namespace StoreBinding

inductive Setting
  | binding (p : Property)
  | table
  | recordCount
  | fieldCount
  | fieldLength
  | threads
  | logLevel
  | logFormat
deriving DecidableEq, Repr

namespace Setting

def all : List Setting :=
  Property.all.map binding ++
    [table, recordCount, fieldCount, fieldLength, threads, logLevel, logFormat]

def name : Setting → String
  | binding .host => "couchbase_host"
  | binding .bucket => "couchbase_bucket"
  | binding .username => "couchbase_username"
  | binding .password => "couchbase_password"
  | binding .kvTimeoutMillis => "couchbase_kv_timeout_millis"
  | binding .kvEndpoints => "couchbase_kv_endpoints"
  | binding .durability => "couchbase_durability"
  | binding .persistTo => "couchbase_persist_to"
  | binding .replicateTo => "couchbase_replicate_to"
  | table => "table"
  | recordCount => "record_count"
  | fieldCount => "field_count"
  | fieldLength => "field_length"
  | threads => "threads"
  | logLevel => "log_level"
  | logFormat => "log_format"

end Setting

structure Settings where
  binding : Property → Option String
  table : String
  recordCount : Nat
  fieldCount : Nat
  fieldLength : Nat
  threads : Nat
  logLevel : String
  logFormat : Log.Format

namespace Settings

/-- Where settings are looked up, by name in lower case. -/
abbrev Source := String → Option Value

inductive Problem
  | text (p : StoreBinding.Problem)
  | size (p : SizeProblem)
  | logLevel
  | logFormat
deriving DecidableEq, Repr

namespace Problem

def kind : Problem → String
  | text p => p.kind
  | size p => p.kind
  | logLevel | logFormat => "literal_error"

def message : Problem → String
  | text p => p.message
  | size p => p.message
  | logLevel => "Input should be 'DEBUG', 'INFO', 'WARNING', 'ERROR' or 'CRITICAL'"
  | logFormat => "Input should be 'json' or 'text'"

end Problem

structure Invalid where
  setting : Setting
  problem : Problem
deriving DecidableEq, Repr

def field {α : Type} (source : Source) (s : Setting) (default : α)
    (read : Value → Except Problem α) : Except Invalid α :=
  match source s.name with
  | none => .ok default
  | some v => (read v).mapError fun problem => ⟨s, problem⟩

def readText (v : Value) : Except Problem String := v.readText.mapError .text

def readOptional : Value → Except Problem (Option String)
  | .null => .ok none
  | v => (readText v).map some

def readSize (v : Value) : Except Problem Nat := (Size.read v).mapError .size

def logLevels : List String := ["DEBUG", "INFO", "WARNING", "ERROR", "CRITICAL"]

def readLogLevel : Value → Except Problem String
  | .text s => if s ∈ logLevels then .ok s else .error .logLevel
  | _ => .error .logLevel

def readLogFormat : Value → Except Problem Log.Format
  | .text "json" => .ok .json
  | .text "text" => .ok .text
  | _ => .error .logFormat

def binding? (source : Source) (p : Property) : Except Invalid (Option String) :=
  field source (.binding p) none readOptional

def table? (source : Source) : Except Invalid String := field source .table "usertable" readText

def size? (source : Source) (s : Setting) (default : Nat) : Except Invalid Nat :=
  field source s default readSize

def logLevel? (source : Source) : Except Invalid String :=
  field source .logLevel "INFO" readLogLevel

def logFormat? (source : Source) : Except Invalid Log.Format :=
  field source .logFormat .text readLogFormat

/-- Everything that is wrong in a source, in the order of the settings. -/
def problems (source : Source) : List Invalid :=
  let problem {α : Type} : Except Invalid α → List Invalid
    | .ok _ => []
    | .error e => [e]
  Property.all.flatMap (fun p => problem (binding? source p)) ++ problem (table? source) ++
    problem (size? source .recordCount 100) ++ problem (size? source .fieldCount 10) ++
    problem (size? source .fieldLength 100) ++ problem (size? source .threads 1) ++
    problem (logLevel? source) ++ problem (logFormat? source)

/-- The settings of a source, or everything that is wrong in it. -/
def read (source : Source) : Except (List Invalid) Settings :=
  match problems source with
  | [] =>
    .ok { binding := fun p => (binding? source p).toOption.join
          table := (table? source).toOption.getD "usertable"
          recordCount := (size? source .recordCount 100).toOption.getD 100
          fieldCount := (size? source .fieldCount 10).toOption.getD 10
          fieldLength := (size? source .fieldLength 100).toOption.getD 100
          threads := (size? source .threads 1).toOption.getD 1
          logLevel := (logLevel? source).toOption.getD "INFO"
          logFormat := (logFormat? source).toOption.getD .text }
  | invalid => .error invalid

/-- The properties that are set, in qualified spelling. -/
def properties (s : Settings) : RawProperties :=
  .ofList (Property.all.filterMap fun p => (s.binding p).map fun v => (p.key, .text v))

/-- A name in small letters; the Kelvin sign is a capital k. -/
def lower (name : String) : String := name.map fun c => if c = '\u212a' then 'k' else c.toLower

def lowered {α : Type} (given : List (String × α)) : OrderedMap String α :=
  .ofList (given.map fun (name, v) => (lower name, v))

/-- The process environment beats the file. Of several spellings of a name in a file the one that
came first last decides. -/
def source (environment : List (String × String)) (file : OrderedMap String (Option String)) :
    Source := fun name =>
  match (lowered environment).get? name with
  | some v => some (.text v)
  | none => ((lowered file.entries).get? name).join.map .text

/-- Settings given as arguments, whose names may be spelled with capitals. Of several spellings of a
name the first decides. -/
def arguments (given : RawProperties) : Source := fun name =>
  (given.entries.find? fun p => lower p.1 == name).map Prod.snd

/-- Settings from the environment and the text of an environment file. -/
def load (environment : List (String × String)) (file : String) :
    Except (List Invalid) Settings :=
  read (source environment (VariableFile.read environment file))

/-- The environment file to read: the one asked for, unless its name is empty. -/
def fileName (asked : Option String) : String :=
  match asked with
  | none | some "" => ".env"
  | some name => name

end Settings

end StoreBinding
