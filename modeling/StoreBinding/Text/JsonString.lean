import StoreBinding.Text.Hex
import StoreBinding.Text.Units

/-!
JSON strings in seven-bit form. Every unit outside the visible ASCII range is written by a
letter or its number, so a written string has no line breaks, no control characters and no
bytes beyond ASCII, whatever the text.
-/
namespace StoreBinding.Text.JsonString

/-- The letter that stands for a unit after a backslash. -/
def letter? : Nat → Option Char
  | 0x22 => some '"'
  | 0x5c => some '\\'
  | 0x0a => some 'n'
  | 0x0d => some 'r'
  | 0x09 => some 't'
  | 0x08 => some 'b'
  | 0x0c => some 'f'
  | _ => none

def isVisible (u : Nat) : Bool := 0x20 ≤ u && u ≤ 0x7e

def encodeUnit (u : Nat) : List Char :=
  match letter? u with
  | some l => ['\\', l]
  | none => if isVisible u then [Char.ofNat u] else '\\' :: 'u' :: (hex 4 u).toList

def encodeUnits (units : Units) : String :=
  "\"" ++ String.ofList (units.flatMap encodeUnit) ++ "\""

def encode (s : String) : String := encodeUnits (Units.ofString s)

end StoreBinding.Text.JsonString
