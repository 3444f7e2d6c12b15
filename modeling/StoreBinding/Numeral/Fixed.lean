import StoreBinding.Numeral.Shortest

/-!
Numbers with a chosen precision: a fixed count of places after the point, one digit before
the point and an exponent, or whichever of the two is shorter for a count of significant
digits. The exact value is rounded once, an exact half going to the even neighbour.
-/
namespace StoreBinding.Numeral

/-- Places a point so that the given count of digits stands after it. A lone point at the end is
written only on demand. -/
def withPoint (keepPoint : Bool) (places : Nat) (digits : List Char) : List Char :=
  let whole := digits.length - places
  if places = 0 ∧ !keepPoint then digits
  else digits.take whole ++ '.' :: digits.drop whole

/-- Drops zeros at the end of a fraction, and the point if nothing is left after it. -/
def stripFraction (digits : List Char) : List Char :=
  if '.' ∈ digits then
    let kept := stripZeros digits
    if kept.getLast? = some '.' then kept.dropLast else kept
  else digits

def fixed (keepPoint : Bool) (places m : Nat) (q : Int) : List Char :=
  let n := roundDiv (m * Nat.pow 10 places * Nat.pow 2 q.toNat) (Nat.pow 2 (-q).toNat)
  withPoint keepPoint places ((toString n).toList.leftpad (places + 1) '0')

/-- The first digits of a number, rounded, and the decimal exponent of the first of them. -/
def significant (count m : Nat) (q : Int) : List Char × Int :=
  if m = 0 then (zeros count, 0)
  else
    let d := Decimal.ofBinary m q
    let length := (toString d.digits).length
    let n :=
      if length ≤ count then d.digits * Nat.pow 10 (count - length)
      else roundDiv d.digits (Nat.pow 10 (length - count))
    let lead : Int := length + d.exponent - 1
    if n = Nat.pow 10 count then ((toString (n / 10)).toList, lead + 1)
    else ((toString n).toList, lead)

def scientific (keepPoint : Bool) (mark : Char) (places m : Nat) (q : Int) : List Char :=
  let (digits, lead) := significant (places + 1) m q
  withPoint keepPoint places digits ++ exponentText mark lead

/-- More significant digits than any double-precision number has. -/
def enoughDigits : Nat := 800

/-- A count of significant digits, at least one: positional when the exponent lies between minus
four and that count. Zeros at the end of the fraction are kept only with the point, and without
them no more digits than there are need be counted. -/
def general (keepPoint : Bool) (mark : Char) (precision m : Nat) (q : Int) : List Char :=
  let count := max (if keepPoint then precision else min precision enoughDigits) 1
  let (digits, lead) := significant count m q
  let trim := if keepPoint then id else stripFraction
  if -4 ≤ lead ∧ lead < count then
    trim (fixed keepPoint (count - 1 - lead).toNat m q)
  else
    trim (withPoint keepPoint (count - 1) digits) ++ exponentText mark lead

end StoreBinding.Numeral
