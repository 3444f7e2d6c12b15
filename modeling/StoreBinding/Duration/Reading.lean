import StoreBinding.Duration
import StoreBinding.Value

/-!
Time spans from milliseconds that are handed in as a value. Integers and truth values are
exact. Of a number with a fraction, the whole milliseconds are exact; the fraction times a
thousand is rounded to double precision, and the sum of both to the nearest microsecond, an
exact half going to the even neighbour.
-/
namespace StoreBinding

open Numeral (Binary64)

namespace Duration

/-- Why a value gives no span. -/
inductive Unreadable
  | overflow (e : Overflow)
  | notANumber
  | infinite
  | wrongType (kind : String)
deriving DecidableEq, Repr

def Unreadable.message : Unreadable → String
  | overflow e => e.message
  | notANumber => "cannot convert float NaN to integer"
  | infinite => "cannot convert float infinity to integer"
  | wrongType kind => "unsupported type for timedelta milliseconds component: " ++ kind

/-- The microseconds in `m * 2 ^ q` milliseconds. -/
def roundedMicros (m : Nat) (q : Int) : Nat :=
  let one := Nat.pow 2 (-q).toNat
  let scaled := m * Nat.pow 2 q.toNat
  let (mantissa, shift) := Binary64.significand (1000 * (scaled % one))
  let unit := one / Nat.pow 2 shift
  Numeral.roundDiv (1000 * (scaled / one) * unit + mantissa) unit

def read : Value → Except Unreadable Duration
  | .int n => (ofMillis n).mapError .overflow
  | .bool b => (ofMillis (if b then 1 else 0)).mapError .overflow
  | .float .nan => .error .notANumber
  | .float (.infinite _) => .error .infinite
  | .float (.finite negative m q) =>
    let micros := roundedMicros m q
    (ofMicros (if negative then -(micros : Int) else micros)).mapError .overflow
  | v => .error (.wrongType v.kindName)

@[simp] theorem read_int (n : Int) : read (.int n) = (ofMillis n).mapError .overflow := rfl

end Duration

end StoreBinding
