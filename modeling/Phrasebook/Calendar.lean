import Phrasebook.Decimal.Shortest

/-!
# Dates and moments

Days of the proleptic Gregorian calendar from year 1 to year 9999, and moments: a day with a time
of day, to the microsecond, and possibly an offset from universal time.

Two moments with an offset are the same when they name the same instant; without an offset, when
their fields agree. A moment with an offset is never the same as one without.
-/

namespace Phrasebook

/-! ## Days -/

/-- A day of the calendar. -/
structure Date where
  year : Nat
  month : Nat
  day : Nat
deriving Repr, DecidableEq, Inhabited

namespace Date

/-- Whether a year has a leap day. -/
def isLeap (year : Nat) : Bool :=
  (year % 4 == 0 && year % 100 != 0) || year % 400 == 0

/-- The number of days of a month. -/
def daysInMonth (year month : Nat) : Nat :=
  if month = 2 then if isLeap year then 29 else 28
  else if month = 4 || month = 6 || month = 9 || month = 11 then 30
  else 31

/-- A day, when the calendar has it. -/
def ofFields? (year month day : Nat) : Option Date :=
  if 1 ≤ year && year ≤ 9999 && 1 ≤ month && month ≤ 12
    && 1 ≤ day && day ≤ daysInMonth year month then some ⟨year, month, day⟩
  else none

/-- The number of leap days before a year. -/
def leapDaysBefore (year : Nat) : Nat :=
  (year - 1) / 4 - (year - 1) / 100 + (year - 1) / 400

/-- The number of days before the day, counted from the first day of year 1. -/
def dayNumber (d : Date) : Nat :=
  (d.year - 1) * 365 + leapDaysBefore d.year
    + (List.range (d.month - 1)).foldl (fun n m => n + daysInMonth d.year (m + 1)) 0 + d.day - 1

/-- A number filled with zeros to a width. -/
def padded (width n : Nat) : String :=
  String.ofList (Decimal.padLeft width (Decimal.digitsOf n))

/-- The text of a day: year, month and day, most significant first. -/
def text (d : Date) : String :=
  padded 4 d.year ++ "-" ++ padded 2 d.month ++ "-" ++ padded 2 d.day

/-- The text of a day inside a container. -/
def display (d : Date) : String :=
  "datetime.date(" ++ toString d.year ++ ", " ++ toString d.month ++ ", " ++ toString d.day ++ ")"

example : (ofFields? 2019 2 29).isNone := by decide
example : (Date.mk 1970 1 1).dayNumber = 719162 := by decide

end Date

/-! ## Moments -/

/-- A day with a time of day and, possibly, the minutes that local time is ahead of universal
time. -/
structure Moment where
  date : Date
  hour : Nat
  minute : Nat
  second : Nat
  microsecond : Nat
  offset? : Option Int
deriving Repr, DecidableEq, Inhabited

namespace Moment

/-- A moment, when its time of day exists and its offset is less than a day. -/
def ofFields? (date : Date) (hour minute second microsecond : Nat) (offset? : Option Int) :
    Option Moment :=
  if hour < 24 && minute < 60 && second < 60 && microsecond < 1000000
    && offset?.all (fun o => -1440 < o && o < 1440) then
    some ⟨date, hour, minute, second, microsecond, offset?⟩
  else none

/-- Microseconds of local time since the first day of year 1. -/
def localMicroseconds (m : Moment) : Int :=
  ((((m.date.dayNumber * 24 + m.hour) * 60 + m.minute) * 60 + m.second) * 1000000
    + m.microsecond : Nat)

/-- Whether two moments are the same. -/
def same (a b : Moment) : Bool :=
  match a.offset?, b.offset? with
  | none, none => a.localMicroseconds == b.localMicroseconds
  | some x, some y =>
    a.localMicroseconds - x * 60000000 == b.localMicroseconds - y * 60000000
  | _, _ => false

/-- The text of an offset: a sign, hours and minutes. -/
def offsetText (o : Int) : String :=
  (if o < 0 then "-" else "+") ++ Date.padded 2 (o.natAbs / 60) ++ ":"
    ++ Date.padded 2 (o.natAbs % 60)

/-- The text of a moment. The fraction is written when it is not zero. -/
def text (m : Moment) : String :=
  m.date.text ++ " " ++ Date.padded 2 m.hour ++ ":" ++ Date.padded 2 m.minute ++ ":"
    ++ Date.padded 2 m.second
    ++ (if m.microsecond = 0 then "" else "." ++ Date.padded 6 m.microsecond)
    ++ (m.offset?.map offsetText).getD ""

/-- The text of an offset inside a container. A negative one is a negative day and seconds. -/
def offsetDisplay (o : Int) : String :=
  if o = 0 then "datetime.timezone.utc"
  else
    let seconds := (o * 60) % 86400
    let days := if o < 0 then "days=-1, " else ""
    "datetime.timezone(datetime.timedelta(" ++ days ++ "seconds=" ++ toString seconds ++ "))"

/-- The text of a moment inside a container. Seconds and microseconds are left out from the end as
long as they are zero. -/
def display (m : Moment) : String :=
  let fields := [m.date.year, m.date.month, m.date.day, m.hour, m.minute]
    ++ (if m.microsecond = 0 then if m.second = 0 then [] else [m.second]
        else [m.second, m.microsecond])
  "datetime.datetime(" ++ ", ".intercalate (fields.map toString)
    ++ (m.offset?.map fun o => ", tzinfo=" ++ offsetDisplay o).getD "" ++ ")"

example : (Moment.mk ⟨2020, 1, 2⟩ 3 4 0 0 (some (-30))).text = "2020-01-02 03:04:00-00:30" := by
  decide +kernel

end Moment

end Phrasebook
