import StoreBinding.Numeral.Decimal
import StoreBinding.Text.Blank
import StoreBinding.Text.Utf8
import StoreBinding.Value

/-!
Positive sizes. A size is an integer, a truth value, a number without a fraction, or a
numeral: blanks around it, a sign, zeros in front, single underscores between digits and a
fraction of zeros are allowed. Neither a sign nor zeros in front count toward the length of a
numeral. One that is too long is told apart only if it needs no cleaning.
-/
namespace StoreBinding

inductive SizeProblem
  | wrongType
  | unreadable
  | tooLong
  | fractional
  | notFinite
  | notPositive
deriving DecidableEq, Repr

namespace SizeProblem

def kind : SizeProblem → String
  | wrongType => "int_type"
  | unreadable => "int_parsing"
  | tooLong => "int_parsing_size"
  | fractional => "int_from_float"
  | notFinite => "finite_number"
  | notPositive => "value_error"

def message : SizeProblem → String
  | wrongType => "Input should be a valid integer"
  | unreadable => "Input should be a valid integer, unable to parse string as an integer"
  | tooLong => "Unable to parse input string as an integer, exceeded maximum size"
  | fractional => "Input should be a valid integer, got a number with a fractional part"
  | notFinite => "Input should be a finite number"
  | notPositive => "Value error, must be positive"

end SizeProblem

namespace Size

/-- Drops a fraction of one or more zeros. -/
def dropFraction (s : List Char) : List Char :=
  let whole := s.takeWhile (· != '.')
  match s.drop whole.length with
  | '.' :: zero :: zeros => if (zero :: zeros).all (· == '0') then whole else s
  | _ => s

def startsNumber (c : Char) : Bool := (c.isDigit && c != '0') || c == '-'

/-- Drops zeros before a number, and underscores behind them. Of zeros alone the last character
stays. -/
def dropZeros? (s : List Char) : Option (List Char) :=
  match s with
  | '0' :: rest =>
    match rest.dropWhile fun c => c == '0' || c == '_' with
    | [] => s.getLast?.map ([·])
    | c :: rest => if startsNumber c then some (c :: rest) else none
  | c :: rest => if startsNumber c then some (c :: rest) else none
  | [] => none

/-- A text that a sign is taken off: the minus is kept aside, and none may follow a plus. -/
def splitSign? : List Char → Option (Bool × List Char)
  | '-' :: rest => some (true, rest)
  | '+' :: '-' :: _ => none
  | '+' :: rest => some (false, rest)
  | s => some (false, s)

/-- Whether every underscore stands between two other characters. -/
def underscoresFit : List Char → Bool
  | [] => true
  | ['_'] => false
  | '_' :: '_' :: _ => false
  | _ :: rest => underscoresFit rest

def dropUnderscores (s : List Char) : List Char :=
  if s.head? ≠ some '_' ∧ underscoresFit s then s.filter (· != '_') else s

/-- Reads a bare numeral: a minus or nothing, and digits that do not start with a needless zero.
Too many digits are found before what follows them is looked at. -/
def readNumeral (s : List Char) : Except SizeProblem Int :=
  let (negative, rest) := match s with
    | '-' :: rest => (true, rest)
    | rest => (false, rest)
  let digits := rest.takeWhile Char.isDigit
  let needless := digits.head? = some '0' ∧ digits ≠ ['0']
  if digits = [] ∨ needless then .error .unreadable
  else if Numeral.digitLimit < digits.length then .error .tooLong
  else if digits ≠ rest then .error .unreadable
  else .ok (if negative then -(Numeral.value digits : Int) else Numeral.value digits)

/-- The bare numeral in a text: blanks, a sign, a fraction, zeros in front and underscores are taken
off in this order. -/
def clean? (s : List Char) : Option (List Char) := do
  let (negative, rest) ← splitSign? (dropFraction (Text.trim Text.isBlank s))
  let rest ← dropZeros? rest
  return dropUnderscores (if negative then '-' :: rest else rest)

/-- A text is read as it stands, and cleaned only if it is no bare numeral. -/
def readText (s : String) : Except SizeProblem Int :=
  match readNumeral s.toList with
  | .error .unreadable =>
    match (clean? s.toList).map readNumeral with
    | some (.ok n) => .ok n
    | _ => .error .unreadable
  | r => r

/-- A number without a fraction that fits 64 bits. -/
def readFloat (x : Numeral.Binary64) : Except SizeProblem Int :=
  match x with
  | .finite _ _ _ =>
    match x.asInt? with
    | none => .error .fractional
    | some n => if n.natAbs < 0x8000000000000000 then .ok n else .error .tooLong
  | _ => .error .notFinite

def readInt : Value → Except SizeProblem Int
  | .int n => .ok n
  | .bool b => .ok (if b then 1 else 0)
  | .float x => readFloat x
  | .text s => readText s
  | .bytes b =>
    match Text.Utf8.decode b with
    | .ok s => readText s
    | .error _ => .error .unreadable
  | _ => .error .wrongType

/-- A size is at least one. -/
def read (v : Value) : Except SizeProblem Nat :=
  match readInt v with
  | .error e => .error e
  | .ok n => if n ≤ 0 then .error .notPositive else .ok n.toNat

end Size

end StoreBinding
