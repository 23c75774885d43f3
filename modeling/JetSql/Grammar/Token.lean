/-
Tokens: spacing, symbols, keywords, names and literals.

Every token may be preceded by spacing. Spacing is blanks and line breaks, and comments, which run
from two minus signs to the end of the line. A line ends with a line feed, or with a carriage return
before one; **a carriage return alone ends no line**, and a comment that meets one is not a comment.

A keyword is written in any case and may not run on into a longer word. **A `LIKE` whose `K` is the
Kelvin sign aborts the reading.** Reserved words are no names; in brackets every text is one.
-/

import JetSql.Grammar.Reader
import JetSql.Text.Blank
import JetSql.Text.Quoted
import JetSql.Text.Word
import JetSql.Tree.Basic

namespace JetSql.Grammar

open Reader

/-! ### Spacing -/

/-- A character that separates tokens. -/
def isSpacing (c : Char) : Bool :=
  c == ' ' || c == '\t' || c == '\r' || c == '\n'

/-- Whether the first line break of a text, if there is one, is not a carriage return alone. -/
def lineEndsWell : List Char → Bool
  | [] => true
  | c :: rest =>
    if c = '\n' then true
    else if c = '\r' then rest.head? == some '\n'
    else lineEndsWell rest

/-- Whether a comment opens where a minus sign stands before the text. -/
def opensComment : List Char → Bool
  | [] => false
  | c :: rest => c == '-' && lineEndsWell rest

/-- The text after spacing; inside a comment all is skipped up to the line break. -/
def skip (inComment : Bool) : List Char → List Char
  | [] => []
  | c :: rest =>
    if inComment then skip (c != '\n' && c != '\r') rest
    else if isSpacing c then skip false rest
    else if c = '-' && opensComment rest then skip true rest
    else c :: rest

/-- The text after spacing. -/
def skipSpacing (s : List Char) : List Char :=
  skip false s

/-- Any amount of spacing. -/
def spacing : Reader Unit := fun s =>
  .ok () (skipSpacing s)

/-! ### Symbols and keywords -/

/-- A punctuation mark, after spacing. -/
def symbol (mark : String) : Reader Unit :=
  spacing *> exactly mark

/-- A keyword, given in upper case, after spacing. Reading aborts where its end would split a
character. -/
def keyword (word : String) : Reader Unit := fun s =>
  match dropTextNoCase? word.toList (skipSpacing s) with
  | some rest => if rest.head?.any Text.isWordChar then .miss rest none else .ok () rest
  | none =>
    bif splitsCharacter word.toList (skipSpacing s) then .halt .aborted
    else .miss (skipSpacing s) none

/-! ### Names -/

/-- The words that are no names, in upper case. -/
def reservedWords : List String :=
  ["SELECT", "FROM", "WHERE", "AND", "OR", "NOT", "AS", "ORDER", "GROUP", "BY", "HAVING", "ASC",
   "DESC", "DISTINCT", "TOP", "LIKE", "IS", "IN", "BETWEEN", "INNER", "OUTER", "JOIN", "ON", "MOD",
   "TRANSFORM", "PIVOT", "IIF", "NULL", "TRUE", "FALSE"]

/-- Whether a word is reserved, in any case. -/
def isReserved (word : String) : Bool :=
  reservedWords.contains word.toUpper

/-- A word. -/
def word : Reader String := fun s =>
  match s with
  | c :: rest =>
    if Text.isWordStart c then
      .ok (String.ofList (c :: rest.takeWhile Text.isWordChar)) (rest.dropWhile Text.isWordChar)
    else .miss s none
  | [] => .miss [] none

/-- A bare name: a word that is not reserved. -/
def name : Reader String :=
  satisfying word fun w => !isReserved w

/-- A name in brackets: any text on one line. -/
def bracketedName : Reader String := do
  char '['
  let body ← run1 fun c => c != ']' && c != '\n'
  char ']'
  pure (String.ofList body)

/-- One part of a dotted name, after spacing. -/
def part : Reader Part := do
  spacing
  (return ⟨← bracketedName, true⟩) <|> (return ⟨← name, false⟩)

/-- Whether a bare word says which side of a join comes next; it then names no alias. -/
def isJoinSide (part : Part) : Bool :=
  !part.bracketed && (Text.sameWord part.name "left" || Text.sameWord part.name "right")

/-- The alias of a table. -/
def tableAlias : Reader Part :=
  satisfying part fun p => !isJoinSide p

/-! ### Lists -/

/-- Further items, each after a separator, at most as many as given; a separator without an item
is left in the text. -/
def furtherItems {α : Type} (separator : Reader Unit) (item : Reader α) : Nat → Reader (List α)
  | 0 => pure []
  | n + 1 => do
    match ← optional (separator *> item) with
    | none => pure []
    | some value => return value :: (← furtherItems separator item n)

/-- Items with separators between them, at least one. No text holds more items than characters. -/
def separated1 {α : Type} (separator : Reader Unit) (item : Reader α) : Reader (List α) := do
  let value ← item
  fun s => (return value :: (← furtherItems separator item s.length)) s

/-- Items with separators between them, perhaps none. -/
def separated0 {α : Type} (separator : Reader Unit) (item : Reader α) : Reader (List α) := do
  match ← optional item with
  | none => pure []
  | some value => fun s => (return value :: (← furtherItems separator item s.length)) s

/-- The parts of a dotted name; spacing may follow a dot but not precede it. -/
def parts : Reader (List Part) := do
  spacing
  separated1 (char '.') part

/-- A dotted name as a node. -/
def identifier : Reader Node := do
  return .identifier (← parts)

/-! ### Literals -/

/-- A string literal in the given quotes; its value keeps doubled quotes doubled. -/
def stringLiteral (quote : Char) : Reader Literal := do
  char quote
  let body ← fun s => let (body, rest) := Text.splitBody quote s; .ok body rest
  char quote
  pure (.string (String.ofList body) quote)

/-- A date literal, trimmed. -/
def dateLiteral : Reader Literal := do
  char '#'
  let body ← run1 fun c => c != '#' && c != '\n'
  char '#'
  pure (.date (String.ofList (Text.trim body)))

/-- A number: digits, and perhaps a point and more digits. -/
def numberLiteral : Reader Literal := do
  let whole ← run1 Char.isDigit
  let fraction ← optional (char '.' *> run1 Char.isDigit)
  pure (.number (String.ofList
    (match fraction with
    | none => whole
    | some digits => whole ++ '.' :: digits)))

/-- A literal, after spacing. -/
def literal : Reader Node := do
  spacing
  let value ← stringLiteral '\'' <|> stringLiteral '"' <|> dateLiteral <|> numberLiteral
    <|> (keyword "TRUE" *> pure (.bool true)) <|> (keyword "FALSE" *> pure (.bool false))
    <|> (keyword "NULL" *> pure .null)
  pure (.literal value)

end JetSql.Grammar
