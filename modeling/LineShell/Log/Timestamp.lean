import LineShell.Double
import LineShell.Failure

/-!
# Timestamps

A moment is a floating-point number of seconds since the beginning of 1970.  It is written as a date
and a time of day with milliseconds.  On the way it becomes a number of microseconds, of which the
last three digits are cut off; far from 1970 this loses precision, which shows.

A clock has limits of its own: whole seconds take 64 bits, and years after 1900 take 32.
-/

namespace LineShell.Log.Timestamp

def beyondClock : Failure := .tooLarge "timestamp out of range for platform time_t"

/-- The whole and the fractional part, in microseconds, of a number of seconds.  The fraction is
rounded twice: once as a floating-point number, once to an integer. -/
def splitRat (q : Rat) : Int × Int :=
  let whole : Int := Int.tdiv q.num q.den
  let fraction := Double.ofRat ((q - whole) * 1000000)
  let micros : Int := match fraction.toRat? with
    | none => 0
    | some f =>
      let n : Int := Double.roundQuotient f.num.natAbs f.den
      if f < 0 then -n else n
  if 1000000 ≤ micros then (whole + 1, micros - 1000000)
  else if micros < 0 then (whole - 1, micros + 1000000)
  else (whole, micros)

def split (seconds : Double) : Except Failure (Int × Int) :=
  match seconds, seconds.toRat? with
  | _, some q =>
    let (whole, micros) := splitRat q
    if -9223372036854775808 ≤ whole ∧ whole ≤ 9223372036854775807 then .ok (whole, micros)
    else .error beyondClock
  | .nan, none => .error (.badValue "Invalid value NaN (not a number)")
  | _, none => .error beyondClock

/-- The year, month and day of a number of days since the beginning of 1970, by eras of 400 years
that begin in March. -/
def civil (days : Int) : Int × Int × Int :=
  let z := days + 719468
  let era := Int.fdiv z 146097
  let day := z - era * 146097
  let year := (day - day / 1460 + day / 36524 - day / 146096) / 365
  let dayOfYear := day - (365 * year + year / 4 - year / 100)
  let month := (5 * dayOfYear + 2) / 153
  let dayOfMonth := dayOfYear - (153 * month + 2) / 5 + 1
  let month := if month < 10 then month + 3 else month - 9
  (year + era * 400 + (if month ≤ 2 then 1 else 0), month, dayOfMonth)

def zeroPadded (width : Nat) (n : Int) : Text :=
  let digits := Text.ofInt n
  List.replicate (width - digits.length) 0x30 ++ digits

/-- A number as 32 bits with a sign show it. -/
def wrapped (n : Int) : Int := Int.bmod n 4294967296

def checkYear (days : Int) : Except Failure Int :=
  let (year, _, _) := civil days
  if 1 ≤ year ∧ year ≤ 9999 then .ok year
  else if wrapped (year - 1900) = year - 1900 then
    .error (.badValue (("year " : Text) ++ Text.ofInt (wrapped year) ++ " is out of range"))
  else .error (.os (some 75) "Value too large for defined data type")

/-- A moment as text.  Only the years from 1 to 9999 can be written, and of these only days after
another day that can be written. -/
def render (moment : Double) : Except Failure Text := do
  let (seconds, micros) ← split moment
  let days := Int.fdiv seconds 86400
  let second := Int.fmod seconds 86400
  let year ← checkYear days
  let _ ← checkYear (days - 1)
  let (_, month, day) := civil days
  return Text.ofInt year ++ "-" ++ zeroPadded 2 month ++ "-" ++ zeroPadded 2 day ++ " " ++
    zeroPadded 2 (second / 3600) ++ ":" ++ zeroPadded 2 (second / 60 % 60) ++ ":" ++
    zeroPadded 2 (second % 60) ++ "." ++ zeroPadded 3 (micros / 1000)

end LineShell.Log.Timestamp
