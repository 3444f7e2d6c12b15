import StoreBinding.Numeral.Word

/-!
Time spans in normal form: any number of whole days, and the rest of a day in seconds and
microseconds. Whole microseconds convert without rounding, by floor division, and a span may
not have more than 999999999 days on either side of zero.
-/
namespace StoreBinding

structure Duration where
  days : Int
  seconds : Nat
  micros : Nat
  seconds_lt : seconds < 86400 := by decide
  micros_lt : micros < 1000000 := by decide
deriving DecidableEq, Repr

namespace Duration

def maxDays : Nat := 999999999

/-- A span that is too long; its day count is told only when it fits 32 bits. -/
inductive Overflow
  | days (n : Int)
  | unbounded
deriving DecidableEq, Repr

def Overflow.message : Overflow → String
  | days n => s!"days={n}; must have magnitude <= {maxDays}"
  | unbounded => "Python int too large to convert to C int"

def microsPerDay : Nat := 86400000000

/-- Whole days and microseconds of a day. -/
def ofDay (days : Int) (micros : Nat) : Duration where
  days
  seconds := micros % microsPerDay / 1000000
  micros := micros % 1000000
  seconds_lt := by
    have : micros % microsPerDay < 86400000000 := Nat.mod_lt _ (by decide)
    omega
  micros_lt := by omega

def ofMicros (n : Int) : Except Overflow Duration :=
  let days := n.fdiv microsPerDay
  if days.natAbs ≤ maxDays then .ok (ofDay days (n.fmod microsPerDay).toNat)
  else if Numeral.fits32 days then .error (.days days)
  else .error .unbounded

def ofMillis (n : Int) : Except Overflow Duration := ofMicros (n * 1000)

def ofSeconds (n : Nat) (h : n < 86400) : Duration := ⟨0, n, 0, h, by decide⟩

def isZero (d : Duration) : Bool := d.days == 0 && d.seconds == 0 && d.micros == 0

/-- The number of microseconds in a span. -/
def toMicros (d : Duration) : Int := d.days * 86400000000 + d.seconds * 1000000 + d.micros

theorem toMicros_of_ofMicros {n : Int} {d : Duration} (h : ofMicros n = .ok d) :
    d.toMicros = n := by
  simp only [ofMicros] at h
  split at h
  · cases h
    have hn := Int.mul_fdiv_add_fmod n microsPerDay
    have hlow := Int.fmod_nonneg_of_pos n (b := microsPerDay) (by decide)
    have hhigh := Int.fmod_lt_of_pos n (b := microsPerDay) (by decide)
    simp only [toMicros, ofDay, microsPerDay] at *
    omega
  · split at h <;> cases h

theorem toMicros_of_ofMillis {n : Int} {d : Duration} (h : ofMillis n = .ok d) :
    d.toMicros = n * 1000 :=
  toMicros_of_ofMicros h

end Duration

end StoreBinding
