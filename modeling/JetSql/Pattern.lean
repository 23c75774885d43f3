/-
Patterns of `LIKE`. A source pattern is a sequence of wildcards and plain characters; a bracket
around one character makes it plain. The target writes `%` and `_` for the wildcards, so a plain
`%` or `_` is escaped there, and the escape character `!` too.

* `Pattern.read` reads the source form. The wildcard for a digit and longer brackets have no target.
* `Pattern.write` gives the target form: one string literal, and an `ESCAPE` clause exactly if
  something in it is escaped.
-/

import JetSql.Error
import JetSql.Text.Quoted

namespace JetSql

/-- One element of a pattern. -/
inductive Wildcard where
  /-- Any text, written `*`. -/
  | anyText
  /-- Any one character, written `?`. -/
  | anyChar
  /-- One character that stands for itself. -/
  | exactly (c : Char)
deriving DecidableEq, Repr

/-- A pattern. -/
abbrev Pattern := List Wildcard

namespace Pattern

/-- The pattern of a source text. -/
def read : List Char → Except PatternFault Pattern
  | [] => .ok []
  | '*' :: rest => return .anyText :: (← read rest)
  | '?' :: rest => return .anyChar :: (← read rest)
  | '#' :: _ => .error .digitWildcard
  | '[' :: c :: ']' :: rest =>
    if c = ']' then .error .characterList else return .exactly c :: (← read rest)
  | '[' :: _ => .error .characterList
  | c :: rest => return .exactly c :: (← read rest)

/-- The escape character of the target form. -/
def escape : Char := '!'

/-- Whether a plain character has to be escaped in the target form. -/
def isSpecial (c : Char) : Bool :=
  c == '%' || c == '_' || c == escape

/-- The target form of one element. -/
def writeElement : Wildcard → List Char
  | .anyText => ['%']
  | .anyChar => ['_']
  | .exactly c => if isSpecial c then [escape, c] else [c]

/-- Whether anything in a pattern has to be escaped. -/
def needsEscape (pattern : Pattern) : Bool :=
  pattern.any fun
    | .exactly c => isSpecial c
    | .anyText | .anyChar => false

/-- The target form of a pattern. -/
def write (pattern : Pattern) : String :=
  "'" ++ String.ofList (pattern.flatMap writeElement) ++ "'" ++
    (if needsEscape pattern then " ESCAPE '" ++ String.singleton escape ++ "'" else "")

end Pattern

/-- The inside of a string literal as the targets write it, between single quotes. A text that was
in double quotes has its pairs of double quotes read as one and its single quotes doubled; a text in
single quotes has them doubled already. -/
def stringBody (value : String) (quote : Char) : List Char :=
  if quote = '"' then Text.double '\'' (Text.undouble '"' value.toList) else value.toList

/-- The target form of a string literal. -/
def stringText (value : String) (quote : Char) : String :=
  "'" ++ String.ofList (stringBody value quote) ++ "'"

/-- The target form of a string literal that is a pattern. -/
def patternText (value : String) (quote : Char) : Except Error String :=
  let body := stringBody value quote
  match Pattern.read body with
  | .ok pattern => .ok pattern.write
  | .error fault => .error (.inexpressible (String.ofList body) fault)

end JetSql
