import StoreBinding.Durability.Check

/-!
Counts of nodes that are handed in as values, and what a caller can hand in as a policy.
Counts in range stay what they are, truth values and fractions too; a policy needs whole
numbers. Main statements: integers ask for the policy, or fail with the refusal, that they make
where they are taken as numbers.
-/
namespace StoreBinding

open Durability (checkValue maxPersistTo maxReplicateTo unmakeable)

/-- How many nodes shall have persisted and replicated a write, as the values that were given. -/
structure Counts where
  persistTo : Value
  replicateTo : Value

namespace Counts

/-- Checks two counts as those of properties; the one for persisting is looked at first. -/
def check (c : Counts) : Except Failure Counts := do
  let persistTo ← checkValue .persistTo maxPersistTo c.persistTo
  let replicateTo ← checkValue .replicateTo maxReplicateTo c.replicateTo
  return { persistTo, replicateTo }

def accept (kind : String → Policy.Unmakeable) (upper : Nat) (v : Value) : Except Failure Value :=
  match v.isWithin? upper with
  | none => .error (.unordered v.kindName)
  | some true => .ok v
  | some false => .error (unmakeable (.about kind v.shown))

/-- Checks two counts that come from no property. -/
def make (persistTo replicateTo : Value) : Except Failure Counts := do
  let persistTo ← accept .persistTo maxPersistTo persistTo
  let replicateTo ← accept .replicateTo maxReplicateTo replicateTo
  return { persistTo, replicateTo }

/-- Whether nothing is asked for beyond the write itself. -/
def isNone (c : Counts) : Bool :=
  c.persistTo.wholeNumber? = some 0 ∧ c.replicateTo.wholeNumber? = some 0

def describe (c : Counts) : Except Unwritable String := do
  return s!"persist_to={← c.persistTo.shown} replicate_to={← c.replicateTo.shown}"

/-- The number of nodes that a value is equal to; there is none for a fraction. -/
def nodes (bound : Nat) (v : Value) : Except Failure (Fin bound) :=
  let refusal := .showing .noNodeCount v.literal
  match v.wholeNumber? with
  | some n =>
    if h : 0 ≤ n ∧ n < bound then .ok ⟨n.toNat, (Int.toNat_lt h.1).2 h.2⟩ else .error refusal
  | none => .error refusal

/-- The policy of whole counts; the one for replicas is looked up first. -/
def toPolicy (c : Counts) : Except Failure Policy := do
  let replicateTo ← nodes 4 c.replicateTo
  let persistTo ← nodes 5 c.persistTo
  return .counts persistTo replicateTo

end Counts

/-- What a caller hands over as a policy: a policy, two counts in range, or a value that is no
policy. -/
inductive Asked
  | policy (p : Policy)
  | counts (c : Counts)
  | other (v : Value)

def Asked.toPolicy : Asked → Except Failure Policy
  | .policy p => .ok p
  | .counts c => c.toPolicy
  | .other v => .error (.showing .unsupportedPolicy v.literal)

/-- A policy as a caller hands it over, with the values of its counts. -/
def Policy.asked : Policy → Asked
  | .level l => .policy (.level l)
  | .counts p r => .counts ⟨.int p.val, .int r.val⟩

/-- The policy that values ask for; a level other than null wins. Counts are checked with their
properties first, and once more when they are made. -/
def Durability.resolveValues (level persistTo replicateTo : Value) : Except Failure Asked :=
  match level with
  | .null => do
    let c ← Counts.check ⟨persistTo, replicateTo⟩
    let c ← Counts.make c.persistTo c.replicateTo
    return .counts c
  | v => (checkLevelValue v).map fun l => .policy (.level l)

namespace Counts

theorem accept_int (kind : String → Policy.Unmakeable) (upper : Nat) (n : Int) :
    accept kind upper (.int n) =
      if 0 ≤ n ∧ n ≤ upper then .ok (.int n)
      else .error (unmakeable (.about kind (Value.numeral n))) := by
  rw [accept, Value.isWithin?_int]
  by_cases h : 0 ≤ n ∧ n ≤ upper
  · rw [decide_eq_true h, if_pos h]
  · rw [decide_eq_false h, if_neg h]
    rfl

/-- Integers make counts, or fail with the refusal, as they make a policy. -/
theorem make_int (p r : Int) :
    make (.int p) (.int r) =
      ((Policy.ofCounts p r).map fun _ => (⟨.int p, .int r⟩ : Counts)).mapError unmakeable := by
  rw [make, accept_int, accept_int]
  by_cases hp : 0 ≤ p ∧ p ≤ (maxPersistTo : Int)
  · rw [if_pos hp]
    by_cases hr : 0 ≤ r ∧ r ≤ (maxReplicateTo : Int)
    · have h := Policy.ofCounts_of_within hp hr
      rw [if_pos hr, h]
      rfl
    · have h : Policy.ofCounts p r = _ := (dif_pos hp).trans (dif_neg hr)
      rw [if_neg hr, h]
      rfl
  · have h : Policy.ofCounts p r = _ := dif_neg hp
    rw [if_neg hp, h]
    rfl

theorem nodes_val {bound : Nat} (i : Fin bound) : nodes bound (.int i.val) = .ok i :=
  dif_pos ⟨Int.natCast_nonneg _, Int.ofNat_lt.2 i.isLt⟩

theorem toPolicy_val (p : Fin 5) (r : Fin 4) :
    toPolicy ⟨.int p.val, .int r.val⟩ = .ok (.counts p r) := by
  rw [toPolicy, nodes_val, nodes_val]
  rfl

end Counts

@[simp] theorem Policy.toPolicy_asked (q : Policy) : q.asked.toPolicy = .ok q := by
  cases q with
  | level l => rfl
  | counts p r => exact Counts.toPolicy_val p r

namespace Durability

/-- A level as a value asks for the policy that it makes as a number. -/
theorem resolveValues_int (n p r : Int) (v w : Value) :
    resolveValues (.int n) v w =
      ((resolve (some n) p r).map Policy.asked).mapError fun e => .config (.refused e) := by
  simp only [resolveValues, checkLevelValue, checkValue_int, resolve, checkLevel, checkRange]
  by_cases h : 0 ≤ n ∧ n ≤ (maxLevel : Int)
  · rw [if_pos h]
    change (levelOf (.int n)).map _ = ((((Level.ofInt n).mapError _).map _).map _).mapError _
    rw [levelOf_int]
    cases Level.ofInt n <;> rfl
  · rw [if_neg h]
    rfl

/-- Counts as values ask for the policy that they make as numbers. -/
theorem resolveValues_null (p r : Int) :
    resolveValues .null (.int p) (.int r) =
      ((resolve none p r).map Policy.asked).mapError fun e => .config (.refused e) := by
  simp only [resolveValues, Counts.check, checkValue_int, resolve, checkPersistTo,
    checkReplicateTo, checkRange]
  by_cases hp : 0 ≤ p ∧ p ≤ (maxPersistTo : Int)
  · by_cases hr : 0 ≤ r ∧ r ≤ (maxReplicateTo : Int)
    · have h := Policy.ofCounts_of_within hp hr
      rw [if_pos hp, if_pos hr]
      change (Counts.make (.int p) (.int r)).map Asked.counts =
        (((Policy.ofCounts p r).mapError _).map _).mapError _
      rw [Counts.make_int, h]
      change Except.ok (Asked.counts ⟨.int p, .int r⟩) =
        Except.ok (Asked.counts ⟨.int p.toNat, .int r.toNat⟩)
      rw [Int.toNat_of_nonneg hp.1, Int.toNat_of_nonneg hr.1]
    · rw [if_pos hp, if_neg hr]
      rfl
  · rw [if_neg hp]
    rfl

end Durability

end StoreBinding
