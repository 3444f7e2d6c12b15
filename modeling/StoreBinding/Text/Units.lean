/-!
Text in sixteen-bit units. A character has one unit, or a pair of surrogates; a surrogate on its
own is a unit that no character has, so units can say what a text cannot.
-/
namespace StoreBinding.Text

abbrev Units := List Nat

namespace Units

/-- The units of a code point: itself, or a pair of surrogates. -/
def ofPoint (n : Nat) : Units :=
  if n < 0x10000 then [n] else [0xd800 + (n - 0x10000) / 0x400, 0xdc00 + (n - 0x10000) % 0x400]

def ofChar (c : Char) : Units := ofPoint c.toNat

def ofString (s : String) : Units := s.toList.flatMap ofChar

end Units

end StoreBinding.Text
