/-
Dates and times in a settings document, and their standard form: `T` between date and time, no zeros
at the end of a fraction of a second, which is cut after nine digits, and `Z` for no offset.
-/

import JetSql.Calendar.Date
import JetSql.Toml.Scan

namespace JetSql.Toml.Scan

/-- A number of so many digits within bounds. -/
def bounded (digits least most : Nat) : Scan Nat := do
  let value := numberOf 10 (← count digits Char.isDigit)
  if least ≤ value ∧ value ≤ most then pure value else failure

/-- A day of the calendar. -/
def date : Scan String := do
  let year ← bounded 4 0 9999
  char '-'
  let month ← bounded 2 1 12
  char '-'
  let day ← bounded 2 1 (Date.daysIn year month)
  pure (Date.iso ⟨year, month, day⟩)

/-- The digits of a fraction of a second in the standard form, with the point before them. -/
def fractionText (digits : List Char) : String :=
  match ((digits.take 9).reverse.dropWhile (· == '0')).reverse with
  | [] => ""
  | kept => "." ++ String.ofList kept

/-- A time of day. -/
def time : Scan String := do
  let hour ← bounded 2 0 23
  char ':'
  let minute ← bounded 2 0 59
  char ':'
  let second ← bounded 2 0 60
  let fraction ← (do
    char '.'
    match ← run Char.isDigit with
    | [] => failure
    | digits => pure (fractionText digits)) <|> pure ""
  pure (TimeOfDay.iso ⟨hour, minute, second⟩ ++ fraction)

/-- A distance from universal time. -/
def offset : Scan String := do
  match ← rest with
  | c :: s =>
    set s
    if c = 'Z' || c = 'z' then pure "Z"
    else if c = '+' || c = '-' then
      let hour ← bounded 2 0 23
      char ':'
      let minute ← bounded 2 0 59
      let sign := if c = '-' && (hour, minute) != (0, 0) then "-" else "+"
      pure (sign ++ Text.zeroPadded 2 hour ++ ":" ++ Text.zeroPadded 2 minute)
    else failure
  | [] => failure

/-- The time after a date, with what parts them, and perhaps an offset. -/
def timeAfterDate : Scan String := do
  match ← rest with
  | c :: s =>
    set s
    if c = 'T' || c = 't' || c = ' ' then
      let time ← time
      let offset ← offset <|> pure ""
      pure ("T" ++ time ++ offset)
    else failure
  | [] => failure

/-- A date, a time or both. -/
def moment : Scan String :=
  (do
    let date ← date
    let time ← timeAfterDate <|> pure ""
    pure (date ++ time))
  <|> time

end JetSql.Toml.Scan
