import StoreBinding.Property
import StoreBinding.Value.Text

/-!
Durability policies. Either the store enforces a level, or the client observes how many
nodes have persisted and replicated a write. A requested level wins, and the counts are
then not looked at. A policy cannot hold a number out of range; numbers are checked twice,
once with the property that they came from at hand and once without.
-/
namespace StoreBinding

inductive Level
  | none
  | majority
  | majorityAndPersistToActive
  | persistToMajority
deriving DecidableEq, Repr

namespace Level

def name : Level → String
  | none => "NONE"
  | majority => "MAJORITY"
  | majorityAndPersistToActive => "MAJORITY_AND_PERSIST_TO_ACTIVE"
  | persistToMajority => "PERSIST_TO_MAJORITY"

/-- The number that asks for a level. -/
def number : Level → Nat
  | none => 0
  | majority => 1
  | majorityAndPersistToActive => 2
  | persistToMajority => 3

def all : List Level := [none, majority, majorityAndPersistToActive, persistToMajority]

end Level

inductive Policy
  | level (l : Level)
  | counts (persistTo : Fin 5) (replicateTo : Fin 4)
deriving DecidableEq, Repr

/-- Numbers that no policy can be made of, as they are shown. -/
inductive Policy.Unmakeable
  | persistTo (shown : String)
  | replicateTo (shown : String)
  | level (shown : String)
  | unshown (u : Unwritable)
deriving DecidableEq, Repr

namespace Policy.Unmakeable

/-- A number that may turn out to have no text. -/
def about (kind : String → Unmakeable) : Except Unwritable String → Unmakeable
  | .ok shown => kind shown
  | .error u => unshown u

def message : Unmakeable → String
  | persistTo shown => "persist_to must be between 0 and 4, got " ++ shown
  | replicateTo shown => "replicate_to must be between 0 and 3, got " ++ shown
  | level shown => shown ++ " is not a valid DurabilityLevel"
  | unshown u => u.message

end Policy.Unmakeable

def Level.ofInt? (n : Int) : Option Level := Level.all.find? fun l => (l.number : Int) = n

def Level.ofInt (n : Int) : Except Policy.Unmakeable Level :=
  match Level.ofInt? n with
  | some l => .ok l
  | .none => .error (.about .level (Value.numeral n))

namespace Policy

def ofCounts (persistTo replicateTo : Int) : Except Unmakeable Policy :=
  if hp : 0 ≤ persistTo ∧ persistTo ≤ 4 then
    if hr : 0 ≤ replicateTo ∧ replicateTo ≤ 3 then
      .ok (.counts ⟨persistTo.toNat, by omega⟩ ⟨replicateTo.toNat, by omega⟩)
    else .error (.about .replicateTo (Value.numeral replicateTo))
  else .error (.about .persistTo (Value.numeral persistTo))

theorem ofCounts_of_within {p r : Int} (hp : 0 ≤ p ∧ p ≤ 4) (hr : 0 ≤ r ∧ r ≤ 3) :
    ofCounts p r = .ok (.counts ⟨p.toNat, by omega⟩ ⟨r.toNat, by omega⟩) :=
  (dif_pos hp).trans (dif_pos hr)

/-- Whether a policy asks for nothing beyond the write itself. -/
def isNone : Policy → Bool
  | level _ => false
  | counts p r => p = 0 ∧ r = 0

def describe : Policy → String
  | level l => "level=" ++ l.name
  | counts p r => s!"persist_to={p.val} replicate_to={r.val}"

end Policy

/-- A property whose number lies outside the range that starts at zero. -/
structure OutOfRange where
  property : Property
  upper : Nat
deriving DecidableEq, Repr

def OutOfRange.message (e : OutOfRange) : String :=
  s!"\"{e.property.key}\" must be between 0 and {e.upper}"

namespace Durability

def maxPersistTo : Nat := 4

def maxReplicateTo : Nat := 3

def maxLevel : Nat := 3

inductive Refusal
  | outOfRange (e : OutOfRange)
  | unmakeable (e : Policy.Unmakeable)
deriving DecidableEq, Repr

def checkRange (p : Property) (upper : Nat) (n : Int) : Except Refusal Int :=
  if 0 ≤ n ∧ n ≤ upper then .ok n else .error (.outOfRange ⟨p, upper⟩)

def checkPersistTo (n : Int) : Except Refusal Int := checkRange .persistTo maxPersistTo n

def checkReplicateTo (n : Int) : Except Refusal Int := checkRange .replicateTo maxReplicateTo n

def checkLevel (n : Int) : Except Refusal Level := do
  let n ← checkRange .durability maxLevel n
  (Level.ofInt n).mapError .unmakeable

/-- The policy in force for the given numbers. -/
def resolve (level : Option Int) (persistTo replicateTo : Int) : Except Refusal Policy :=
  match level with
  | some n => (checkLevel n).map .level
  | none => do
    let p ← checkPersistTo persistTo
    let r ← checkReplicateTo replicateTo
    (Policy.ofCounts p r).mapError .unmakeable

end Durability

end StoreBinding
