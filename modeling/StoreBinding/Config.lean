import StoreBinding.Durability
import StoreBinding.Properties

/-!
The configuration of a binding, resolved once from its properties: the durability policy,
the timeout of an operation and the connection parameters. What fails validation is
reported before any number is looked at for its range.
-/
namespace StoreBinding

structure WriteOptions where
  durability : Policy
  timeout : Duration
deriving DecidableEq, Repr

structure Config where
  durability : Policy
  kvTimeoutMillis : Int
  connection : Params
deriving DecidableEq, Repr

namespace Config

/-- Why properties give no configuration. -/
inductive Error
  | invalid (e : Invalid)
  | refused (e : Durability.Refusal)
deriving DecidableEq, Repr

namespace Error

/-- The property at fault. -/
def property? : Error → Option Property
  | invalid e => some e.property
  | refused (.outOfRange e) => some e.property
  | refused (.unmakeable _) => none

def message : Error → String
  | invalid e => s!"\"{e.property.key}\" {e.problem.message.toLower}"
  | refused (.outOfRange e) => e.message
  | refused (.unmakeable e) => e.message

end Error

def ofProperties (p : Properties) : Except Error Config :=
  match Durability.resolve p.durability p.persistTo p.replicateTo with
  | .error e => .error (.refused e)
  | .ok policy =>
    .ok { durability := policy, kvTimeoutMillis := p.kvTimeoutMillis, connection := p.params }

def resolve (given : RawProperties) : Except Error Config :=
  match Properties.read given with
  | .error e => .error (.invalid e)
  | .ok p => ofProperties p

def writeOptions (c : Config) : Except Duration.Overflow WriteOptions :=
  (Duration.ofMillis c.kvTimeoutMillis).map fun timeout => ⟨c.durability, timeout⟩

end Config

end StoreBinding
