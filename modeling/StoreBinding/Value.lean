import StoreBinding.Numeral.Shortest

/-!
The values a field, a property or a log argument can have. A mapping is a list of
entries in order; its keys are distinct when it was read from one.
-/
namespace StoreBinding

open Numeral (Binary64)

inductive Value
  | null
  | bool (b : Bool)
  | int (n : Int)
  | float (x : Binary64)
  | text (s : String)
  | bytes (b : ByteArray)
  | byteArray (b : ByteArray)
  | list (items : List Value)
  | tuple (items : List Value)
  | mapping (entries : List (String × Value))

namespace Value

instance : Inhabited Value := ⟨null⟩

/-- The name of a value's kind in error texts. -/
def kindName : Value → String
  | null => "NoneType"
  | bool _ => "bool"
  | int _ => "int"
  | float _ => "float"
  | text _ => "str"
  | bytes _ => "bytes"
  | byteArray _ => "bytearray"
  | list _ => "list"
  | tuple _ => "tuple"
  | mapping _ => "dict"

def isText (s : String) : Value → Bool
  | text t => t == s
  | _ => false

/-- The integer that a value is equal to, if any; truth values count as zero and one. -/
def wholeNumber? : Value → Option Int
  | int n => some n
  | bool b => some (if b then 1 else 0)
  | float x => x.asInt?
  | _ => none

/-- Whether a value lies between zero and a bound; nothing for values that have no order with
numbers. -/
def isWithin? (upper : Nat) : Value → Option Bool
  | int n => some (0 ≤ n && n ≤ upper)
  | bool b => some ((if b then 1 else 0) ≤ upper)
  | float .nan => some false
  | float (.infinite _) => some false
  | float (.finite negative m q) =>
    let notAbove := m * Nat.pow 2 q.toNat ≤ upper * Nat.pow 2 (-q).toNat
    some ((m == 0 || !negative) && notAbove)
  | _ => none

theorem isWithin?_int (upper : Nat) (n : Int) :
    isWithin? upper (.int n) = some (decide (0 ≤ n ∧ n ≤ upper)) := by
  simp [isWithin?]

end Value

end StoreBinding
