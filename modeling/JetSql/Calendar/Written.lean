/-
Written dates: what stands between the number signs of a date literal.

A date is `yyyy-m-d` or `m/d/yyyy`; after blanks a time may follow, `h:m` or `h:m:s` of the 24-hour
day or, with `AM` or `PM`, of the 12-hour day. Numbers may have leading zeros, and blanks may stand
before a number.

**The year must be written with four characters.** `hasFullYear` looks for it before the first minus
sign of the date if there is one, and after the last slash otherwise; a sign counts as a character.
-/

import JetSql.Calendar.Date
import JetSql.Error
import JetSql.Text.Blank

namespace JetSql.Written

/-! ### Fields -/

/-- A number of at least one and at most `most` digits, and the text after it. -/
def digits (most : Nat) (cs : List Char) : Option (Nat × List Char) :=
  let taken := (cs.take most).takeWhile Char.isDigit
  if taken.isEmpty then none
  else some (taken.foldl (fun value digit => 10 * value + (digit.toNat - '0'.toNat)) 0,
    cs.drop taken.length)

/-- A number of one or two digits, after blanks. -/
def field (cs : List Char) : Option (Nat × List Char) :=
  digits 2 (Text.trimStart cs)

/-- A year, after blanks: up to four digits, or a sign and any number of digits. -/
def year (cs : List Char) : Option (Int × List Char) :=
  match Text.trimStart cs with
  | '-' :: rest => (digits rest.length rest).map fun (value, after) => (-(value : Int), after)
  | '+' :: rest => (digits rest.length rest).map fun (value, after) => ((value : Int), after)
  | rest => (digits 4 rest).map fun (value, after) => ((value : Int), after)

/-- What is left after one fixed character. -/
def mark (c : Char) : List Char → Option (List Char)
  | [] => none
  | d :: rest => if d = c then some rest else none

/-! ### Dates -/

/-- The date of numbers that name a day, when nothing is left over. -/
def realDate (date : Date) (rest : List Char) : Option Date :=
  if rest = [] ∧ date.IsReal then some date else none

/-- A date with the year first. -/
def yearFirst (cs : List Char) : Option Date := do
  let (y, cs) ← year cs
  let (m, cs) ← field (← mark '-' cs)
  let (d, cs) ← field (← mark '-' cs)
  realDate ⟨y, m, d⟩ cs

/-- A date with the month first. -/
def monthFirst (cs : List Char) : Option Date := do
  let (m, cs) ← field cs
  let (d, cs) ← field (← mark '/' cs)
  let (y, cs) ← year (← mark '/' cs)
  realDate ⟨y, m, d⟩ cs

/-- Whether the year of a written date has four characters. -/
def hasFullYear (cs : List Char) : Bool :=
  let yearText :=
    if cs.contains '-' then cs.takeWhile (· != '-') else cs.reverse.takeWhile (· != '/')
  yearText.length == 4

/-- A date in either order. -/
def date (cs : List Char) : Option Date :=
  if hasFullYear cs then yearFirst cs <|> monthFirst cs else none

/-! ### Times -/

/-- The time of numbers that name one, when nothing is left over. -/
def realTime (time : TimeOfDay) (rest : List Char) : Option TimeOfDay :=
  if rest = [] ∧ time.IsReal then some time else none

/-- An hour and a minute. -/
def hourMinute (cs : List Char) : Option ((Nat × Nat) × List Char) := do
  let (h, cs) ← field cs
  let (m, cs) ← field (← mark ':' cs)
  pure ((h, m), cs)

/-- An hour, a minute and a second. -/
def hourMinuteSecond (cs : List Char) : Option ((Nat × Nat × Nat) × List Char) := do
  let ((h, m), cs) ← hourMinute cs
  let (s, cs) ← field (← mark ':' cs)
  pure ((h, m, s), cs)

/-- Whether the half of the day is the second one: `AM` or `PM` in any case, after blanks. -/
def isAfternoon (cs : List Char) : Option (Bool × List Char) :=
  match Text.trimStart cs with
  | a :: m :: rest =>
    if m.toUpper = 'M' then
      if a.toUpper = 'A' then some (false, rest)
      else if a.toUpper = 'P' then some (true, rest)
      else none
    else none
  | _ => none

/-- The hour of the 24-hour day; hour twelve begins either half. -/
def hourOfDay (hour : Nat) (afternoon : Bool) : Nat :=
  hour % 12 + if afternoon then 12 else 0

/-- A time of the 12-hour day from its parts. -/
def halfDayTime (hour minute second : Nat) (cs : List Char) : Option TimeOfDay := do
  let (afternoon, cs) ← isAfternoon cs
  if 1 ≤ hour ∧ hour ≤ 12 then realTime ⟨hourOfDay hour afternoon, minute, second⟩ cs else none

/-- A time, in the first of the four forms that fits. -/
def time (cs : List Char) : Option TimeOfDay :=
  (do
    let ((h, m, s), cs) ← hourMinuteSecond cs
    realTime ⟨h, m, s⟩ cs)
  <|> (do
    let ((h, m), cs) ← hourMinute cs
    realTime ⟨h, m, 0⟩ cs)
  <|> (do
    let ((h, m, s), cs) ← hourMinuteSecond cs
    halfDayTime h m s cs)
  <|> (do
    let ((h, m), cs) ← hourMinute cs
    halfDayTime h m 0 cs)

/-! ### Moments -/

/-- A written moment: a date, and after the first blank a time. -/
def moment (cs : List Char) : Option Moment :=
  let cs := Text.trim cs
  let dateText := cs.takeWhile fun c => !Text.isBlank c
  match cs.dropWhile fun c => !Text.isBlank c with
  | [] => (date dateText).map .day
  | _ :: timeText => do
    let day ← date dateText
    return .timestamp day (← time (Text.trim timeText))

end JetSql.Written

namespace JetSql

/-- The moment that a date literal names. -/
def Moment.ofText (text : String) : Except Error Moment :=
  match Written.moment text.toList with
  | some moment => .ok moment
  | none => .error (.badDate text)

end JetSql
