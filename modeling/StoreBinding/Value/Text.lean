import StoreBinding.Numeral.Decimal
import StoreBinding.Text.Quoted
import StoreBinding.Text.Utf8
import StoreBinding.Value

/-!
The text of a value. Stored fields are text: a byte string is decoded, text stands for
itself, and any other value is written as its literal. Two things have no text: bytes
that are not UTF-8, and integers with more digits than a numeral may have, at any depth.
-/
namespace StoreBinding

open Text

/-- Why a value has no text. -/
inductive Unwritable
  | malformed (m : Utf8.Malformed)
  | tooManyDigits
deriving DecidableEq, Repr

def Unwritable.message : Unwritable → String
  | malformed m => m.message
  | tooManyDigits =>
    s!"Exceeds the limit ({Numeral.digitLimit} digits) for integer string conversion; " ++
      "use sys.set_int_max_str_digits() to increase the limit"

namespace Value

def numeral (n : Int) : Except Unwritable String :=
  match Numeral.text? n with
  | some s => .ok s
  | none => .error .tooManyDigits

mutual

/-- The literal of a value: text and bytes are quoted, containers show their items' literals. -/
def literal : Value → Except Unwritable String
  | null => .ok "None"
  | bool b => .ok (if b then "True" else "False")
  | int n => numeral n
  | float x => .ok x.text
  | text s => .ok (Quoted.text s)
  | bytes b => .ok (Quoted.bytes b)
  | byteArray b => .ok (Quoted.byteArray b)
  | list items => (itemLiterals items).map fun parts => "[" ++ ", ".intercalate parts ++ "]"
  | tuple items =>
    (itemLiterals items).map fun parts =>
      match parts with
      | [single] => "(" ++ single ++ ",)"
      | _ => "(" ++ ", ".intercalate parts ++ ")"
  | mapping entries =>
    (entryLiterals entries).map fun parts => "\x7b" ++ ", ".intercalate parts ++ "\x7d"

def itemLiterals : List Value → Except Unwritable (List String)
  | [] => .ok []
  | v :: rest =>
    match literal v with
    | .error e => .error e
    | .ok s => (itemLiterals rest).map (s :: ·)

def entryLiterals : List (String × Value) → Except Unwritable (List String)
  | [] => .ok []
  | (k, v) :: rest =>
    match literal v with
    | .error e => .error e
    | .ok s => (entryLiterals rest).map ((Quoted.text k ++ ": " ++ s) :: ·)

end

/-- How a value shows in a sentence: text as it is, anything else by its literal. -/
def shown : Value → Except Unwritable String
  | text s => .ok s
  | v => v.literal

/-- The stored form of a value. -/
def encode : Value → Except Unwritable String
  | bytes b => (Utf8.decode b).mapError .malformed
  | byteArray b => (Utf8.decode b).mapError .malformed
  | v => v.shown

@[simp] theorem encode_text (s : String) : (text s).encode = .ok s := rfl

end Value

end StoreBinding
