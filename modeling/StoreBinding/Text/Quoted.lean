import StoreBinding.Text.Hex
import StoreBinding.Text.Printable

/-!
Quoted literals. Text and byte strings are written between quotes so that the boundary
of each piece stays visible: the backslash and the quote are escaped, and what cannot be
seen is written by its number. Single quotes are used unless the content has a single
quote and no double one.
-/
namespace StoreBinding.Text.Quoted

def quoteFor (s : List Char) : Char :=
  if '\'' ∈ s ∧ '"' ∉ s then '"' else '\''

/-- The shortest of the three numbered forms that has room for the character. -/
def numbered (c : Char) : String :=
  if c.toNat < 0x100 then "\\x" ++ hex 2 c.toNat
  else if c.toNat < 0x10000 then "\\u" ++ hex 4 c.toNat
  else "\\U" ++ hex 8 c.toNat

def escape (visible escaped : Char → Bool) (c : Char) : String :=
  if c = '\\' ∨ escaped c then "\\" ++ c.toString
  else if c = '\n' then "\\n"
  else if c = '\r' then "\\r"
  else if c = '\t' then "\\t"
  else if visible c then c.toString
  else numbered c

def between (quote : Char) (visible escaped : Char → Bool) (s : List Char) : String :=
  quote.toString ++ s.foldl (fun out c => out ++ escape visible escaped c) "" ++ quote.toString

def isVisibleAscii (c : Char) : Bool := ' ' ≤ c && c ≤ '~'

def text (s : String) : String :=
  let quote := quoteFor s.toList
  between quote isPrintable (· == quote) s.toList

/-- Writes every character beyond ASCII by number and leaves the others alone. -/
def ascii (s : String) : String :=
  s.foldl (fun out c => out ++ if c.toNat < 0x80 then c.toString else numbered c) ""

/-- One character per byte, the byte being its number. -/
def byteChars (b : ByteArray) : List Char :=
  b.toList.map fun x => Char.ofNat x.toNat

def bytes (b : ByteArray) : String :=
  let quote := quoteFor (byteChars b)
  "b" ++ between quote isVisibleAscii (· == quote) (byteChars b)

/-- Mutable byte strings name their kind, and escape single quotes whichever quote encloses them. -/
def byteArray (b : ByteArray) : String :=
  "bytearray(b" ++ between (quoteFor (byteChars b)) isVisibleAscii (· == '\'') (byteChars b) ++ ")"

end StoreBinding.Text.Quoted
