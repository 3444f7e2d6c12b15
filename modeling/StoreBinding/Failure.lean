import StoreBinding.Config
import StoreBinding.Duration.Reading
import StoreBinding.Text.Blank

/-!
What can go wrong while a binding is used. Faults come from the store or the service and
carry a text of their own; the other failures are this library's. An interrupt is no
failure: nothing that recovers from failures catches it.
-/
namespace StoreBinding

inductive FaultKind
  | general
  | runtime
  | value
  | key
  | os
  | timeout
  | connectionReset
  | serviceTimeout
  | authentication
  | documentNotFound
  | documentExists
  | durabilityImpossible
  | invalidArgument
  | database
  | configuration
  | connection
deriving DecidableEq, Repr

namespace FaultKind

def name : FaultKind → String
  | general => "Exception"
  | runtime => "RuntimeError"
  | value => "ValueError"
  | key => "KeyError"
  | os => "OSError"
  | timeout => "TimeoutError"
  | connectionReset => "ConnectionResetError"
  | serviceTimeout => "TimeoutException"
  | authentication => "AuthenticationException"
  | documentNotFound => "DocumentNotFoundException"
  | documentExists => "DocumentExistsException"
  | durabilityImpossible => "DurabilityImpossibleException"
  | invalidArgument => "InvalidArgumentException"
  | database => "DBError"
  | configuration => "ConfigurationError"
  | connection => "StoreConnectionError"

def all : List FaultKind :=
  [general, runtime, value, key, os, timeout, connectionReset, serviceTimeout, authentication,
    documentNotFound, documentExists, durabilityImpossible, invalidArgument, database,
    configuration, connection]

def ofName? (name : String) : Option FaultKind := all.find? fun k => k.name == name

def isServiceKind : FaultKind → Bool
  | serviceTimeout | authentication | documentNotFound | documentExists | durabilityImpossible
  | invalidArgument => true
  | _ => false

/-- The name with the place where the kind is defined. -/
def qualifiedName (k : FaultKind) : String :=
  match k with
  | database | configuration | connection => "couchbench.core.errors." ++ k.name
  | _ => if k.isServiceKind then "couchbase.exceptions." ++ k.name else k.name

end FaultKind

/-- An error of a store or a service, with or without a text. -/
structure Fault where
  kind : FaultKind
  text : Option String := none
deriving DecidableEq, Repr

namespace Fault

/-- A service's errors put a text that is not blank into a bracket after their name; a missing key
is quoted; all others show their text. -/
def message (f : Fault) : String :=
  if f.kind.isServiceKind then
    match f.text with
    | some t =>
      if t.toList.all Text.isSpace then f.kind.name ++ "(<>)"
      else f.kind.name ++ "(<message=" ++ t ++ ">)"
    | none => f.kind.name ++ "(<>)"
  else
    match f.text with
    | some t => if f.kind = .key then Text.Quoted.text t else t
    | none => ""

end Fault

inductive Failure
  | fault (f : Fault)
  | missing (id : String)
  | existing (id : String)
  | config (e : Config.Error)
  | duration (e : Duration.Unreadable)
  | unwritable (e : Unwritable)
  /-- A value handed over as a policy that is none; holds the value as it is shown. -/
  | unsupportedPolicy (shown : String)
  /-- A durability value that has no order with numbers; holds the name of its kind. -/
  | unordered (kind : String)
  /-- A count that no number of nodes is equal to; holds the value as it is shown. -/
  | noNodeCount (shown : String)
  | bytesHost
  /-- A host in which no text can be looked for; holds the name of its kind. -/
  | unsearchableHost (kind : String)
  /-- A field length above the longest text there can be. -/
  | fieldTooLong
  /-- A configuration error raised without the text it needs. -/
  | unexplained
  | notConnected
  | unreachable (host : String) (cause : Failure)
deriving DecidableEq, Repr

namespace Failure

def name : Failure → String
  | fault f => f.kind.name
  | missing _ => "DocumentMissingError"
  | existing _ => "DocumentExistsError"
  | config (.refused (.unmakeable _)) => "ValueError"
  | config _ => "ConfigurationError"
  | duration (.overflow _) | duration .infinite | fieldTooLong => "OverflowError"
  | duration .notANumber => "ValueError"
  | duration (.wrongType _) => "TypeError"
  | unwritable (.malformed _) => "UnicodeDecodeError"
  | unwritable .tooManyDigits => "ValueError"
  | noNodeCount _ => "KeyError"
  | unsupportedPolicy _ | unordered _ | bytesHost | unsearchableHost _ | unexplained =>
    "TypeError"
  | notConnected => "StoreConnectionError"
  | unreachable _ _ => "StoreConnectionError"

def message : Failure → String
  | fault f => f.message
  | missing id => id
  | existing id => id
  | config e => e.message
  | duration e => e.message
  | unwritable e => e.message
  | unsupportedPolicy shown => "Unsupported durability policy: " ++ shown
  | unordered kind => s!"'<=' not supported between instances of 'int' and '{kind}'"
  | noNodeCount shown => shown
  | bytesHost => "a bytes-like object is required, not 'str'"
  | unsearchableHost kind => s!"argument of type '{kind}' is not iterable"
  | fieldTooLong => "Python int too large to convert to C ssize_t"
  | unexplained =>
    "ConfigurationError.__init__() missing 1 required positional argument: 'message'"
  | notConnected => "connection is not initialized"
  | unreachable host cause => "failed to connect to " ++ host ++ ": " ++ cause.message

/-- A failure that shows a value, unless the value has no text. -/
def showing (kind : String → Failure) : Except Unwritable String → Failure
  | .ok shown => kind shown
  | .error u => unwritable u

/-- The error behind an error, by name. -/
def causeName? : Failure → Option String
  | config (.invalid _) => some "ValidationError"
  | unreachable _ cause => some cause.name
  | _ => none

/-- The property that a configuration error names. -/
def key? : Failure → Option Property
  | config e => e.property?
  | _ => none

/-- Whether a failure is one that the harness treats as fatal: the configuration is wrong or the
store cannot be reached. -/
def isFatal : Failure → Bool
  | config (.refused (.unmakeable _)) => false
  | config _ => true
  | notConnected => true
  | unreachable _ _ => true
  | _ => false

end Failure

/-- A fault of the given kind. A configuration error must say what is wrong. -/
def Fault.make (kind : FaultKind) (text : Option String) : Except Failure Fault :=
  if kind = .configuration ∧ text = none then .error .unexplained else .ok { kind, text }

/-- Why a step ends early: an interrupt with its text, or a failure. -/
inductive Halt
  | interrupt (text : String)
  | failure (f : Failure)
deriving DecidableEq, Repr

namespace Halt

def name : Halt → String
  | interrupt _ => "KeyboardInterrupt"
  | failure f => f.name

def message : Halt → String
  | interrupt text => text
  | failure f => f.message

/-- The name with the place where the kind of error is defined. -/
def qualifiedName : Halt → String
  | failure (.fault f) => f.kind.qualifiedName
  | failure f => if f.isFatal then "couchbench.core.errors." ++ f.name else f.name
  | interrupt text => (interrupt text).name

/-- The headline of a report: the qualified name, and the message unless it is empty. -/
def headline (h : Halt) : String :=
  if h.message = "" then h.qualifiedName else h.qualifiedName ++ ": " ++ h.message

end Halt

end StoreBinding
