import StoreBinding.Durability

/-!
What a policy asks of the cluster service. A level is enforced by the servers; counts are
watched by the client, each as a named number of nodes, and two zeros ask for nothing.
-/
namespace StoreBinding

inductive NodeCount
  | none
  | one
  | two
  | three
  | four
deriving DecidableEq, Repr

namespace NodeCount

def name : NodeCount → String
  | none => "NONE"
  | one => "ONE"
  | two => "TWO"
  | three => "THREE"
  | four => "FOUR"

def persist : Fin 5 → NodeCount
  | 0 => none
  | 1 => one
  | 2 => two
  | 3 => three
  | 4 => four

def replicate : Fin 4 → NodeCount
  | 0 => none
  | 1 => one
  | 2 => two
  | 3 => three

end NodeCount

inductive Requirement
  | server (l : Level)
  | client (persistTo replicateTo : NodeCount)
deriving DecidableEq, Repr

def Policy.requirement? : Policy → Option Requirement
  | .level l => some (.server l)
  | .counts p r =>
    if (Policy.counts p r).isNone then none
    else some (.client (NodeCount.persist p) (NodeCount.replicate r))

end StoreBinding
