/-!
The nine properties of a binding. Each is given under its bare name or under that name
with the binding's own qualifier, and the qualified spelling wins.
-/
namespace StoreBinding

inductive Property
  | host
  | bucket
  | username
  | password
  | kvTimeoutMillis
  | kvEndpoints
  | durability
  | persistTo
  | replicateTo
deriving DecidableEq, Repr

namespace Property

def all : List Property :=
  [host, bucket, username, password, kvTimeoutMillis, kvEndpoints, durability, persistTo,
    replicateTo]

def name : Property → String
  | host => "host"
  | bucket => "bucket"
  | username => "username"
  | password => "password"
  | kvTimeoutMillis => "kvTimeoutMillis"
  | kvEndpoints => "kvEndpoints"
  | durability => "durability"
  | persistTo => "persistTo"
  | replicateTo => "replicateTo"

def qualifier : String := "couchbase."

def qualify (key : String) : String := qualifier ++ key

/-- The qualified spelling. -/
def key (p : Property) : String := qualify p.name

/-- A key without its qualifier; only one is taken off. -/
def bare (key : String) : String :=
  if qualifier.toList.isPrefixOf key.toList then
    String.ofList (key.toList.drop qualifier.length)
  else key

end Property

end StoreBinding
