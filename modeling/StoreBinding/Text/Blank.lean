import StoreBinding.Text.Printable

/-!
White space: the 25 characters of that property, listed as closed ranges in increasing
order, and the wider class that also has the four separators among the control characters.
Trimming names the class that it removes.
-/
namespace StoreBinding.Text

def blankRanges : List (Nat × Nat) :=
  [(0x09, 0x0d), (0x20, 0x20), (0x85, 0x85), (0xa0, 0xa0), (0x1680, 0x1680), (0x2000, 0x200a),
   (0x2028, 0x2029), (0x202f, 0x202f), (0x205f, 0x205f), (0x3000, 0x3000)]

def isBlank (c : Char) : Bool := inRanges c.toNat blankRanges

/-- White space, or one of the separators of files, groups, records and units. -/
def isSpace (c : Char) : Bool := isBlank c || ('\x1c' ≤ c && c ≤ '\x1f')

def trimLeft (p : Char → Bool) (s : List Char) : List Char := s.dropWhile p

def trimRight (p : Char → Bool) (s : List Char) : List Char := (s.reverse.dropWhile p).reverse

def trim (p : Char → Bool) (s : List Char) : List Char := trimRight p (trimLeft p s)

end StoreBinding.Text
