/-
Text as it stands inside a quoted label: control, combining and other unprintable characters become
escapes, so that a label is one visible line.
-/

import JetSql.Text.Combining
import JetSql.Text.Printable

namespace JetSql.Text

/-- The escape of a character by its code point: `\u`, then lower-case hexadecimal in braces. -/
def codePointEscape (c : Char) : String :=
  "\\u\x7b" ++ String.ofList (Nat.toDigits 16 c.toNat) ++ "\x7d"

/-- A character as it stands between the given quotes. -/
def escapeChar (quote c : Char) : String :=
  if c = '\x00' then "\\0"
  else if c = '\t' then "\\t"
  else if c = '\n' then "\\n"
  else if c = '\r' then "\\r"
  else if c = '\\' then "\\\\"
  else if c = quote then "\\" ++ String.singleton c
  else if isCombining c || !isPrintable c then codePointEscape c
  else String.singleton c

/-- A text in double quotes. -/
def quoteText (s : String) : String :=
  "\"" ++ String.join (s.toList.map (escapeChar '"')) ++ "\""

/-- A character in single quotes. -/
def quoteChar (c : Char) : String :=
  "'" ++ escapeChar '\'' c ++ "'"

end JetSql.Text
