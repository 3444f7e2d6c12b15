import StoreBinding.Numeral.Binary64

/-!
The shortest decimal of a double-precision number. A number stands for all reals that
round to it; among the decimals in that interval the one with the fewest digits is
written, of two such the nearer, and of two equally near the even one. The value and the
ends of the interval are integers on one common decimal scale, so the search is exact.
-/
namespace StoreBinding.Numeral

/-- `digits * 10 ^ exponent` -/
structure Decimal where
  digits : Nat
  exponent : Int
deriving DecidableEq, Repr

/-- `m * 2 ^ q` as a decimal, exactly. -/
def Decimal.ofBinary (m : Nat) (q : Int) : Decimal :=
  if 0 ≤ q then ⟨m * Nat.pow 2 q.toNat, 0⟩ else ⟨m * Nat.pow 5 (-q).toNat, q⟩

/-- The reals that round to `value`, all four numbers counted in units of `10 ^ exponent`. -/
structure Rounding where
  low : Nat
  value : Nat
  high : Nat
  exponent : Int
  closed : Bool

namespace Rounding

/-- The neighbour below is half as far away at a power of two, except at the bottom of the range.
The ends belong to the interval when the mantissa is even. -/
def ofBinary (m : Nat) (q : Int) : Rounding :=
  let gap := if m = Binary64.hiddenBit ∧ q > -1074 then 1 else 2
  let scaled := fun n => Decimal.ofBinary n (q - 2)
  { low := (scaled (4 * m - gap)).digits
    value := (scaled (4 * m)).digits
    high := (scaled (4 * m + 2)).digits
    exponent := (scaled 0).exponent
    closed := m % 2 = 0 }

def contains (r : Rounding) (n : Nat) : Bool :=
  if r.closed then r.low ≤ n && n ≤ r.high else r.low < n && n < r.high

/-- The best multiple of `10 ^ j` in the interval: one of the two neighbours of the value. -/
def multiple? (r : Rounding) (j : Nat) : Option Nat :=
  let unit := Nat.pow 10 j
  let below := r.value / unit
  let rest := r.value % unit
  match r.contains (below * unit), r.contains ((below + 1) * unit) with
  | true, true =>
    if 2 * rest < unit then some below
    else if unit < 2 * rest then some (below + 1)
    else some (if below % 2 = 0 then below else below + 1)
  | true, false => some below
  | false, true => some (below + 1)
  | false, false => none

/-- Tries coarser units first; at unit one the value itself is in the interval. -/
def search (r : Rounding) : Nat → Decimal
  | 0 => ⟨r.value, r.exponent⟩
  | j + 1 =>
    match r.multiple? (j + 1) with
    | some n => ⟨n, r.exponent + (j + 1)⟩
    | none => r.search j

def shortest (r : Rounding) : Decimal := r.search ((toString r.value).length - 1)

end Rounding

def stripZeros (digits : List Char) : List Char :=
  (digits.reverse.dropWhile (· == '0')).reverse

def zeros (n : Nat) : List Char := List.replicate n '0'

/-- A signed exponent of at least two digits. -/
def exponentText (mark : Char) (e : Int) : List Char :=
  mark :: (if e < 0 then '-' else '+') :: (toString e.natAbs).toList.leftpad 2 '0'

/-- Positional from the fourth place after the point up to sixteen digits before it, otherwise
with an exponent; a positional integer keeps one zero after the point. -/
def layout (d : Decimal) : List Char :=
  let all := (toString d.digits).toList
  let digits := stripZeros all
  let point : Int := all.length + d.exponent
  if point ≤ -4 ∨ 16 < point then
    let mantissa := if digits.length = 1 then digits else digits.take 1 ++ '.' :: digits.drop 1
    mantissa ++ exponentText 'e' (point - 1)
  else if point ≤ 0 then '0' :: '.' :: zeros (-point).toNat ++ digits
  else
    let whole := point.toNat
    if digits.length ≤ whole then digits ++ zeros (whole - digits.length) ++ ['.', '0']
    else digits.take whole ++ '.' :: digits.drop whole

def sign (negative : Bool) (digits : List Char) : List Char :=
  if negative then '-' :: digits else digits

def Binary64.text : Binary64 → String
  | .nan => "nan"
  | .infinite negative => String.ofList (sign negative "inf".toList)
  | .finite negative m q =>
    String.ofList (sign negative
      (if m = 0 then "0.0".toList else layout (Rounding.ofBinary m q).shortest))

end StoreBinding.Numeral
