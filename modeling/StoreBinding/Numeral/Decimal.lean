/-!
Decimal numerals of integers. Writing and reading are bounded: an integer of more than
4300 digits has no numeral, and a longer run of digits is not read, leading zeros
counted. The sign is free.
-/
namespace StoreBinding.Numeral

def digitLimit : Nat := 4300

/-- The decimal numeral of an integer, if it has no more digits than the limit. -/
def text? (n : Int) : Option String :=
  if n.natAbs < Nat.pow 10 digitLimit then some (toString n) else none

/-- How an integer numeral can fail to be read. -/
inductive Unreadable
  | notAnInteger
  | tooLong (digits : Nat)
deriving DecidableEq, Repr

def value (digits : List Char) : Nat :=
  digits.foldl (fun n c => 10 * n + (c.toNat - '0'.toNat)) 0

/-- Splits off one leading sign; the flag says whether it was a minus. -/
def splitSign : List Char → Bool × List Char
  | '-' :: rest => (true, rest)
  | '+' :: rest => (false, rest)
  | rest => (false, rest)

/-- Reads an optional sign followed by one or more ASCII digits, and nothing else. -/
def read (s : String) : Except Unreadable Int :=
  match splitSign s.toList with
  | (negative, digits) =>
    if digits ≠ [] ∧ digits.all Char.isDigit then
      if digits.length ≤ digitLimit then
        .ok (if negative then -(value digits : Int) else value digits)
      else .error (.tooLong digits.length)
    else .error .notAnInteger

end StoreBinding.Numeral
