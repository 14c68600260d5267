/-!
# Moments

A date and a time of day by the Gregorian calendar, perhaps with the distance from universal time.
`Moment.make` refuses numbers that make no moment, `Moment.microseconds` puts moments in order, and
`Moment.text` and `Moment.quoted` write them.
-/

namespace RouteAtlas

/-- A date and a time of day, perhaps with its distance from universal time. -/
structure Moment where
  year : Nat
  month : Nat
  day : Nat
  hour : Nat
  minute : Nat
  second : Nat
  microsecond : Nat
  /-- Microseconds east of universal time. -/
  offset : Option Int
deriving DecidableEq, Repr

namespace Moment

/-! ## The calendar -/

/-- The number of days from the first day of the year 1 to the first day of a year. -/
def daysBefore (year : Nat) : Nat :=
  let y := year - 1
  365 * y + y / 4 - y / 100 + y / 400

/-- Whether a year has a day more. -/
def isLeap (year : Nat) : Bool := year % 4 == 0 && (year % 100 != 0 || year % 400 == 0)

/-- The lengths of the months of a year. -/
def monthLengths (year : Nat) : List Nat :=
  [31, if isLeap year then 29 else 28, 31, 30, 31, 30, 31, 31, 30, 31, 30, 31]

/-- The number of days of a year before a month. -/
def daysBeforeMonth (year month : Nat) : Nat :=
  ((monthLengths year).take (month - 1)).foldl (· + ·) 0

/-- The number of microseconds since the year 1 began, by the clock that shows the moment. -/
def microseconds (m : Moment) : Int :=
  let days := daysBefore m.year + daysBeforeMonth m.year m.month + (m.day - 1)
  let seconds := ((days * 24 + m.hour) * 60 + m.minute) * 60 + m.second
  seconds * 1000000 + m.microsecond

/-! ## Text -/

/-- A number filled up with zeros. -/
def zeroPadded (width n : Nat) : String :=
  let s := toString n
  String.ofList (List.replicate (width - s.length) '0') ++ s

/-- The text of a distance from universal time, in microseconds: hours and minutes, and what else
there is. -/
def offsetText (distance : Int) : String :=
  let seconds := distance.natAbs / 1000000
  let rest := distance.natAbs % 1000000
  (if distance < 0 then "-" else "+") ++ zeroPadded 2 (seconds / 3600) ++ ":"
    ++ zeroPadded 2 (seconds / 60 % 60)
    ++ (if seconds % 60 = 0 ∧ rest = 0 then "" else ":" ++ zeroPadded 2 (seconds % 60))
    ++ (if rest = 0 then "" else "." ++ zeroPadded 6 rest)

/-- The date and the time with a separator between them. -/
def text (separator : String) (m : Moment) : String :=
  zeroPadded 4 m.year ++ "-" ++ zeroPadded 2 m.month ++ "-" ++ zeroPadded 2 m.day ++ separator
    ++ zeroPadded 2 m.hour ++ ":" ++ zeroPadded 2 m.minute ++ ":" ++ zeroPadded 2 m.second
    ++ (if m.microsecond = 0 then "" else "." ++ zeroPadded 6 m.microsecond)
    ++ (match m.offset with | some o => offsetText o | none => "")

/-- The moment as JSON output writes it. -/
def iso (m : Moment) : String := m.text "T"

/-- The number of microseconds in a day. -/
def dayLength : Int := 86400000000

/-- The whole days of a distance in microseconds. What is left after them is never negative. -/
def wholeDays (distance : Int) : Int := Int.fdiv distance dayLength

/-- A distance from universal time inside other values. -/
def offsetQuoted (distance : Int) : String :=
  let days := wholeDays distance
  let rest := distance - days * dayLength
  let part (name : String) (n : Int) : List String := if n = 0 then [] else [name ++ "=" ++ toString n]
  "datetime.timedelta(" ++ String.intercalate ", "
    (part "days" days ++ part "seconds" (rest / 1000000) ++ part "microseconds" (rest % 1000000)) ++ ")"

/-- The zone of a moment inside other values. -/
def zoneQuoted (distance : Int) : String :=
  if distance = 0 then "datetime.timezone.utc"
  else "datetime.timezone(" ++ offsetQuoted distance ++ ")"

/-- The moment inside other values. -/
def quoted (m : Moment) : String :=
  let small :=
    if m.microsecond ≠ 0 then [m.second, m.microsecond]
    else if m.second ≠ 0 then [m.second] else []
  let numbers := [m.year, m.month, m.day, m.hour, m.minute] ++ small
  let zone := match m.offset with | some o => ["tzinfo=" ++ zoneQuoted o] | none => []
  "datetime.datetime(" ++ String.intercalate ", " (numbers.map toString ++ zone) ++ ")"

/-! ## Making a moment -/

/-- Why numbers make no moment. -/
inductive Refusal where
  /-- The distance from universal time is a day or more. -/
  | offset (distance : Int)
  /-- The year does not have four digits. -/
  | year (n : Int)
  | month
  /-- The month does not have such a day. -/
  | day
  | hour
  | minute
  | second
  | microsecond
deriving DecidableEq, Repr

/-- The wording of a refusal. -/
def Refusal.text : Refusal → String
  | .offset distance =>
    "offset must be a timedelta strictly between -timedelta(hours=24) and timedelta(hours=24), not "
      ++ offsetQuoted distance ++ "."
  | .year n => "year " ++ toString n ++ " is out of range"
  | .month => "month must be in 1..12"
  | .day => "day is out of range for month"
  | .hour => "hour must be in 0..23"
  | .minute => "minute must be in 0..59"
  | .second => "second must be in 0..59"
  | .microsecond => "microsecond must be in 0..999999"

/-- Whether a number lies between two others, ends included. -/
def within (least most n : Int) : Bool := least ≤ n && n ≤ most

/-- A distance from universal time, unless it is a day or more. -/
def zone (distance : Int) : Except Refusal Int :=
  if dayLength ≤ distance.natAbs then .error (.offset distance) else .ok distance

/-- The moment that the numbers of a date, a time of day and a distance make. -/
def make (year month day hour minute second microsecond : Int) (offset : Option Int) :
    Except Refusal Moment :=
  let lastDay : Int := ((monthLengths year.toNat)[month.toNat - 1]?).getD 0
  match offset.mapM zone with
  | .error why => .error why
  | .ok offset =>
    if !within 1 9999 year then .error (.year year)
    else if !within 1 12 month then .error .month
    else if !within 1 lastDay day then .error .day
    else if !within 0 23 hour then .error .hour
    else if !within 0 59 minute then .error .minute
    else if !within 0 59 second then .error .second
    else if !within 0 999999 microsecond then .error .microsecond
    else
      .ok ⟨year.toNat, month.toNat, day.toNat, hour.toNat, minute.toNat, second.toNat,
        microsecond.toNat, offset⟩

end Moment

end RouteAtlas
