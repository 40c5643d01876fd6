/-!
Dates and moments of the Gregorian calendar as documents write them, with their two texts: the
plain one of the international standard, and the constructor form that messages show.
-/
namespace MethodLint

/-- A day of the calendar. -/
structure Date where
  year : Nat
  month : Nat
  day : Nat
  deriving DecidableEq, Repr, Inhabited

/-- A moment: a day, a time of that day, and the distance from universal time in minutes, if it is
given. -/
structure Moment where
  date : Date
  hour : Nat
  minute : Nat
  second : Nat
  microsecond : Nat
  offset : Option Int
  deriving DecidableEq, Repr, Inhabited

/-- Why the numbers of a date or moment denote none. -/
inductive CalendarError
  | year (n : Nat)
  | month
  | day
  | hour
  | minute
  | second
  | offset (minutes : Int)
  deriving DecidableEq, Repr

/-- Zeros before a numeral, up to a width. -/
def padded (width n : Nat) : String :=
  let numeral := toString n
  "".pushn '0' (width - numeral.length) ++ numeral

/-- Every fourth year is a leap year, of the centuries only every fourth. -/
def isLeapYear (year : Nat) : Bool := year % 4 == 0 && (year % 100 != 0 || year % 400 == 0)

/-- The number of days of a month. -/
def daysInMonth (year month : Nat) : Nat :=
  if month = 2 then if isLeapYear year then 29 else 28
  else if month = 4 ∨ month = 6 ∨ month = 9 ∨ month = 11 then 30 else 31

/-- The parts of a span of minutes: whole days rounded down, and the seconds that are left. -/
def spanText (minutes : Int) : String :=
  let days := minutes.fdiv 1440
  let seconds := minutes.fmod 1440 * 60
  let parts := (if days = 0 then [] else ["days=" ++ toString days])
    ++ (if seconds = 0 then [] else ["seconds=" ++ toString seconds])
  "datetime.timedelta(" ++ (if parts.isEmpty then "0" else ", ".intercalate parts) ++ ")"

namespace Date

/-- The day with these numbers, if the calendar has it. -/
def of (year month day : Nat) : Except CalendarError Date :=
  if year < 1 ∨ 9999 < year then .error (.year year)
  else if month < 1 ∨ 12 < month then .error .month
  else if day < 1 ∨ daysInMonth year month < day then .error .day
  else .ok ⟨year, month, day⟩

/-- Year, month and day with dashes. -/
def text (d : Date) : String := s!"{padded 4 d.year}-{padded 2 d.month}-{padded 2 d.day}"

/-- The day that is some days behind the first of the year 1970. Years are counted from March, so
that a leap day ends one; after 400 of them the calendar repeats itself. -/
def ofDayNumber (days : Nat) : Date :=
  let z := days + 719468
  let day := z % 146097
  let year := (day - day / 1460 + day / 36524 - day / 146096) / 365
  let dayOfYear := day - (365 * year + year / 4 - year / 100)
  let month := (5 * dayOfYear + 2) / 153
  let isNext := 10 ≤ month
  ⟨z / 146097 * 400 + year + (if isNext then 1 else 0), if isNext then month - 9 else month + 3,
    dayOfYear - (153 * month + 2) / 5 + 1⟩

/-- The constructor form. -/
def form (d : Date) : String := s!"datetime.date({d.year}, {d.month}, {d.day})"

end Date

namespace Moment

/-- The moment with these numbers, if the calendar and the clock have it. -/
def of (year month day hour minute second microsecond : Nat) (offset : Option Int) :
    Except CalendarError Moment := do
  if let some minutes := offset then
    if minutes ≤ -1440 ∨ 1440 ≤ minutes then throw (.offset minutes)
  let date ← Date.of year month day
  if 23 < hour then throw .hour
  if 59 < minute then throw .minute
  if 59 < second then throw .second
  return ⟨date, hour, minute, second, microsecond, offset⟩

/-- The sign, hours and minutes of a distance from universal time. -/
def offsetText (minutes : Int) : String :=
  let n := minutes.natAbs
  (if minutes < 0 then "-" else "+") ++ padded 2 (n / 60) ++ ":" ++ padded 2 (n % 60)

/-- Day and time with a blank between; microseconds and distance only where there are any. -/
def text (t : Moment) : String :=
  s!"{t.date.text} {padded 2 t.hour}:{padded 2 t.minute}:{padded 2 t.second}"
    ++ (if t.microsecond = 0 then "" else "." ++ padded 6 t.microsecond)
    ++ (t.offset.map offsetText).getD ""

/-- The moment of universal time that is some seconds behind the start of the year 1970. -/
def ofSeconds (seconds microsecond : Nat) : Moment :=
  let clock := seconds % 86400
  ⟨.ofDayNumber (seconds / 86400), clock / 3600, clock / 60 % 60, clock % 60, microsecond, some 0⟩

/-- The text with a T between day and time. -/
def standardText (t : Moment) : String :=
  String.ofList (t.text.toList.map fun c => if c = ' ' then 'T' else c)

/-- The zone part of the constructor form. -/
def zoneForm (minutes : Int) : String :=
  if minutes = 0 then "datetime.timezone.utc" else s!"datetime.timezone({spanText minutes})"

/-- The constructor form. Seconds and microseconds at the end are left out when they are zero. -/
def form (t : Moment) : String :=
  let clock := [toString t.hour, toString t.minute]
    ++ (if t.second = 0 ∧ t.microsecond = 0 then [] else [toString t.second])
    ++ (if t.microsecond = 0 then [] else [toString t.microsecond])
  let zone := match t.offset with
    | none => []
    | some minutes => ["tzinfo=" ++ zoneForm minutes]
  let fields := [toString t.date.year, toString t.date.month, toString t.date.day] ++ clock ++ zone
  "datetime.datetime(" ++ ", ".intercalate fields ++ ")"

end Moment

/-- The wording of a calendar error. -/
def CalendarError.message : CalendarError → String
  | .year n => s!"year {n} is out of range"
  | .month => "month must be in 1..12"
  | .day => "day is out of range for month"
  | .hour => "hour must be in 0..23"
  | .minute => "minute must be in 0..59"
  | .second => "second must be in 0..59"
  | .offset minutes =>
    "offset must be a timedelta strictly between -timedelta(hours=24) and timedelta(hours=24), not "
      ++ spanText minutes ++ "."

end MethodLint
