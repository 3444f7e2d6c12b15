/-!
Double-precision numbers as exact data. A finite number is a signed multiple of a power
of two, so every question about its value is answered in integers. Zero keeps its sign.
-/
namespace StoreBinding.Numeral

/-- The quotient rounded to the nearest integer, an exact half going to the even neighbour. -/
def roundDiv (num den : Nat) : Nat :=
  let q := num / den
  let r := num % den
  if 2 * r < den then q
  else if den < 2 * r then q + 1
  else if q % 2 = 0 then q else q + 1

inductive Binary64
  | nan
  | infinite (negative : Bool)
  /-- plus or minus `mantissa * 2 ^ exponent` -/
  | finite (negative : Bool) (mantissa : Nat) (exponent : Int)
deriving DecidableEq, Repr

namespace Binary64

/-- The leading bit of a normal mantissa, which the interchange format leaves out. -/
def hiddenBit : Nat := 0x10000000000000

/-- Reads the sign, exponent and fraction fields of the interchange format. -/
def ofBits (b : UInt64) : Binary64 :=
  let negative := b >>> 63 == 1
  let field := ((b >>> 52) &&& 0x7ff).toNat
  let fraction := (b &&& 0xfffffffffffff).toNat
  if field = 0x7ff then
    if fraction = 0 then .infinite negative else .nan
  else if field = 0 then .finite negative fraction (-1074)
  else .finite negative (hiddenBit + fraction) (field - 1075)

/-- The nearest number of 53 significant bits, ties to even, as a mantissa and an exponent. -/
def significand (n : Nat) : Nat × Nat :=
  let shift := n.log2 + 1 - 53
  (roundDiv n (Nat.pow 2 shift), shift)

/-- The nearest number to an integer. Integers whose magnitude rounds to `2 ^ 1024` or more have
none. -/
def ofInt? (n : Int) : Option Binary64 :=
  let (mantissa, shift) := significand n.natAbs
  if mantissa * Nat.pow 2 shift < Nat.pow 2 1024 then some (.finite (n < 0) mantissa shift)
  else none

/-- The integer that a number is, if it is one. -/
def asInt? : Binary64 → Option Int
  | .finite negative m q =>
    let den := Nat.pow 2 (-q).toNat
    if m % den = 0 then
      let n : Int := m / den * Nat.pow 2 q.toNat
      some (if negative then -n else n)
    else none
  | _ => none

/-- The integer part of a finite number, toward zero. -/
def truncate (negative : Bool) (m : Nat) (q : Int) : Int :=
  let n : Int := m * Nat.pow 2 q.toNat / Nat.pow 2 (-q).toNat
  if negative then -n else n

end Binary64

end StoreBinding.Numeral
