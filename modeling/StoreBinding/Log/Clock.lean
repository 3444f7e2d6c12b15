import StoreBinding.Numeral.Word

/-!
The time of a log entry in universal time, from the milliseconds since the start of 1970. Days
become dates in eras of four hundred years, each counted from the first of March. The clock
counts seconds in 64 bits; a calendar year, and the years since 1900, must fit 32 bits.
-/
namespace StoreBinding.Log

structure Date where
  year : Int
  month : Nat
  day : Nat
deriving DecidableEq, Repr

namespace Date

/-- The date that lies the given number of days after the first day of 1970. -/
def ofDays (days : Int) : Date :=
  let shifted := days + 719468
  let era := shifted.fdiv 146097
  let dayOfEra := (shifted.fmod 146097).toNat
  let yearOfEra :=
    (dayOfEra - dayOfEra / 1460 + dayOfEra / 36524 - dayOfEra / 146096) / 365
  let dayOfYear := dayOfEra - (365 * yearOfEra + yearOfEra / 4 - yearOfEra / 100)
  let marchMonth := (5 * dayOfYear + 2) / 153
  let month := if marchMonth < 10 then marchMonth + 3 else marchMonth - 9
  let year := era * 400 + yearOfEra
  { year := if month ≤ 2 then year + 1 else year
    month
    day := dayOfYear - (153 * marchMonth + 2) / 5 + 1 }

end Date

/-- Why a time has no date. -/
inductive Timeless
  | beyondClock
  | beyondCalendar
  | yearTooLate
deriving DecidableEq, Repr

def Timeless.name : Timeless → String
  | beyondClock | yearTooLate => "OverflowError"
  | beyondCalendar => "OSError"

def Timeless.message : Timeless → String
  | beyondClock => "timestamp out of range for platform time_t"
  | beyondCalendar => "[Errno 75] Value too large for defined data type"
  | yearTooLate => "signed integer is greater than maximum"

def padded (width n : Nat) : String := String.ofList ((toString n).toList.leftpad width '0')

/-- Date, time of day and milliseconds. -/
def timestamp (millis : Int) : Except Timeless String :=
  let seconds := millis.fdiv 1000
  let date := Date.ofDays (seconds.fdiv 86400)
  let ofDay := (seconds.fmod 86400).toNat
  if !Numeral.fits64 seconds then .error .beyondClock
  else if !Numeral.fits32 (date.year - 1900) then .error .beyondCalendar
  else if !Numeral.fits32 date.year then .error .yearTooLate
  else
    .ok <| s!"{date.year}-{padded 2 date.month}-{padded 2 date.day} " ++
      s!"{padded 2 (ofDay / 3600)}:{padded 2 (ofDay / 60 % 60)}:{padded 2 (ofDay % 60)}," ++
      padded 3 (millis.fmod 1000).toNat

end StoreBinding.Log
