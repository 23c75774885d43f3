/-
Dates of the proleptic Gregorian calendar and times of day, and their standard form.

A `Date` or `TimeOfDay` is a plain triple of numbers; `Date.IsReal` and `TimeOfDay.IsReal` say which
triples name a day or a time. Second 60 is a time of day, for leap seconds.
-/

import JetSql.Text.Pad

namespace JetSql

/-- A year, a month and a day. -/
structure Date where
  year : Int
  month : Nat
  day : Nat
deriving DecidableEq, Repr

namespace Date

/-- Whether a year has a 29 February. -/
def isLeapYear (year : Int) : Bool :=
  year % 4 == 0 && (year % 100 != 0 || year % 400 == 0)

/-- The number of days of a month. -/
def daysIn (year : Int) (month : Nat) : Nat :=
  if month = 2 then if isLeapYear year then 29 else 28
  else if month = 4 || month = 6 || month = 9 || month = 11 then 30
  else 31

/-- The first year of the calendar. -/
def firstYear : Int := -262143

/-- The last year of the calendar. -/
def lastYear : Int := 262142

/-- Whether a triple names a day of the calendar. -/
def IsReal (date : Date) : Prop :=
  firstYear ≤ date.year ∧ date.year ≤ lastYear ∧ 1 ≤ date.month ∧ date.month ≤ 12 ∧
    1 ≤ date.day ∧ date.day ≤ daysIn date.year date.month

instance (date : Date) : Decidable date.IsReal := by
  unfold IsReal
  infer_instance

/-- A year in the standard form: four digits, and beyond four digits or before year zero a sign. -/
def yearText (year : Int) : String :=
  if 0 ≤ year ∧ year ≤ 9999 then Text.zeroPadded 4 year.toNat
  else (if year < 0 then "-" else "+") ++ Text.zeroPadded 4 year.natAbs

/-- A date in the standard form: year, month and day with minus signs between them. -/
def iso (date : Date) : String :=
  yearText date.year ++ "-" ++ Text.zeroPadded 2 date.month ++ "-" ++ Text.zeroPadded 2 date.day

end Date

/-- An hour of the 24-hour day, a minute and a second. -/
structure TimeOfDay where
  hour : Nat
  minute : Nat
  second : Nat
deriving DecidableEq, Repr

namespace TimeOfDay

/-- Whether a triple names a time of day. -/
def IsReal (time : TimeOfDay) : Prop :=
  time.hour ≤ 23 ∧ time.minute ≤ 59 ∧ time.second ≤ 60

instance (time : TimeOfDay) : Decidable time.IsReal := by
  unfold IsReal
  infer_instance

/-- A time in the standard form: hour, minute and second with colons between them. -/
def iso (time : TimeOfDay) : String :=
  Text.zeroPadded 2 time.hour ++ ":" ++ Text.zeroPadded 2 time.minute ++ ":" ++
    Text.zeroPadded 2 time.second

end TimeOfDay

/-- What a date literal names: a day, or a time on a day. -/
inductive Moment where
  | day (date : Date)
  | timestamp (date : Date) (clock : TimeOfDay)
deriving DecidableEq, Repr

/-- The standard form of a moment. -/
def Moment.iso : Moment → String
  | .day date => date.iso
  | .timestamp date clock => date.iso ++ " " ++ clock.iso

end JetSql
