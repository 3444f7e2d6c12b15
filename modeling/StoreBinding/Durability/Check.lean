import StoreBinding.Failure

/-!
Durability numbers that are handed in as values of any kind. A value in range stays what it
is; a level must also be a whole number. Values that have no order with numbers are refused
for that.
-/
namespace StoreBinding.Durability

/-- A value between zero and a bound. -/
def checkValue (p : Property) (upper : Nat) (v : Value) : Except Failure Value :=
  match v.isWithin? upper with
  | none => .error (.unordered v.kindName)
  | some true => .ok v
  | some false => .error (.config (.refused (.outOfRange ⟨p, upper⟩)))

def unmakeable (e : Policy.Unmakeable) : Failure := .config (.refused (.unmakeable e))

/-- The level that a value is equal to. -/
def levelOf (v : Value) : Except Failure Level :=
  match v.wholeNumber?.bind Level.ofInt? with
  | some l => .ok l
  | none => .error (unmakeable (.about .level v.literal))

def checkLevelValue (v : Value) : Except Failure Level :=
  match checkValue .durability maxLevel v with
  | .error e => .error e
  | .ok v => levelOf v

/-- On integers the check is the one that policies are resolved with. -/
theorem checkValue_int (p : Property) (upper : Nat) (n : Int) :
    checkValue p upper (.int n) =
      ((checkRange p upper n).map Value.int).mapError fun e => .config (.refused e) := by
  rw [checkValue, checkRange, Value.isWithin?_int]
  by_cases h : 0 ≤ n ∧ n ≤ upper
  · rw [decide_eq_true h, if_pos h]
    rfl
  · rw [decide_eq_false h, if_neg h]
    rfl

theorem levelOf_int (n : Int) : levelOf (.int n) = (Level.ofInt n).mapError unmakeable := by
  simp only [levelOf, Value.wholeNumber?, Option.bind_some, Level.ofInt]
  cases Level.ofInt? n <;> rfl

end StoreBinding.Durability
