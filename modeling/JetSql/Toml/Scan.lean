/-
The lexical pieces of a settings document: spacing and comments, texts in their four forms, keys,
and whole numbers.

A `Scan` takes a value off the beginning of a text or refuses it. In a text on several lines every
line break counts as a line feed, and up to two quotes may stand right before the closing three.
-/

namespace JetSql.Toml

/-- A way to take a value off the beginning of a text. -/
abbrev Scan (α : Type) := StateT (List Char) Option α

namespace Scan

/-- The text that is left. -/
def rest : Scan (List Char) := get

/-- One fixed character. -/
def char (c : Char) : Scan Unit := fun s =>
  match s with
  | d :: s => if d = c then some ((), s) else none
  | [] => none

/-- The longest stretch of characters with a property. -/
def run (p : Char → Bool) : Scan (List Char) := fun s =>
  some (s.takeWhile p, s.dropWhile p)

/-- So many characters, all with a property. -/
def count (n : Nat) (p : Char → Bool) : Scan (List Char) := fun s =>
  let taken := s.take n
  if taken.length = n ∧ taken.all p then some (taken, s.drop n) else none

/-! ### Spacing -/

/-- A blank within a line. -/
def isBlank (c : Char) : Bool :=
  c == ' ' || c == '\t'

/-- A character that may stand in a comment: no control character but the tab. -/
def isCommentChar (c : Char) : Bool :=
  c == '\t' || (0x20 ≤ c.toNat && c != '\x7f')

/-- What is left after a line break. -/
def afterLineBreak? : List Char → Option (List Char)
  | '\n' :: s => some s
  | '\r' :: '\n' :: s => some s
  | _ => none

/-- Blanks within a line. -/
def blanks : Scan Unit := do
  let _ ← run isBlank

/-- The end of a line or of the text. -/
def lineEnd : Scan Unit := fun s =>
  if s.isEmpty then some ((), []) else (afterLineBreak? s).map fun s => ((), s)

/-- What may follow on a line: blanks, a comment, and the end of the line. -/
def lineTail : Scan Unit := do
  blanks
  if (← rest).head? == some '#' then
    let _ ← run isCommentChar
  lineEnd

/-- Blanks, line breaks and comments, at most so many in all. -/
def layout : Nat → Scan Unit
  | 0 => pure ()
  | n + 1 => do
    blanks
    let s ← rest
    match afterLineBreak? s with
    | some s =>
      set s
      layout n
    | none =>
      if s.head? == some '#' then
        let _ ← run isCommentChar
        layout n

/-! ### Texts -/

/-- The value of a hexadecimal digit. -/
def hexValue (c : Char) : Nat :=
  if c.isDigit then c.toNat - '0'.toNat else c.toLower.toNat - 'a'.toNat + 10

/-- Whether a character is a hexadecimal digit. -/
def isHexDigit (c : Char) : Bool :=
  c.isDigit || ('a' ≤ c.toLower && c.toLower ≤ 'f')

/-- The number that digits stand for in a base. -/
def numberOf (base : Nat) (digits : List Char) : Nat :=
  digits.foldl (fun value digit => base * value + hexValue digit) 0

/-- A character by its code point, which must be a character's. -/
def codePoint (digits : Nat) : Scan Char := do
  let value := numberOf 16 (← count digits isHexDigit)
  if value.isValidChar then pure (Char.ofNat value) else failure

/-- What stands after a backslash. -/
def escape : Scan Char := do
  match ← rest with
  | c :: s =>
    set s
    match c with
    | 'b' => pure '\x08'
    | 't' => pure '\t'
    | 'n' => pure '\n'
    | 'f' => pure '\x0c'
    | 'r' => pure '\r'
    | '"' => pure '"'
    | '\\' => pure '\\'
    | 'u' => codePoint 4
    | 'U' => codePoint 8
    | _ => failure
  | [] => failure

/-- The rest of a text in double quotes on one line, of at most so many characters. -/
def basicBody : Nat → Scan (List Char)
  | 0 => failure
  | n + 1 => do
    match ← rest with
    | '"' :: s =>
      set s
      pure []
    | '\\' :: s =>
      set s
      return (← escape) :: (← basicBody n)
    | c :: s =>
      if isCommentChar c then
        set s
        return c :: (← basicBody n)
      else failure
    | [] => failure

/-- The rest of a text in single quotes on one line. -/
def literalBody : Scan (List Char) := do
  let body ← run fun c => isCommentChar c && c != '\''
  char '\''
  pure body

/-- How many quotes a text begins with, counting up to five. -/
def quoteRun (quote : Char) (s : List Char) : Nat :=
  ((s.take 5).takeWhile (· == quote)).length

/-- What is left after blanks and line breaks. -/
def dropBlankLines : List Char → List Char
  | '\n' :: s => dropBlankLines s
  | '\r' :: '\n' :: s => dropBlankLines s
  | c :: s => if isBlank c then dropBlankLines s else c :: s
  | [] => []

/-- What is left after a backslash at the end of a line, and after the blanks and line breaks that
follow. -/
def afterContinuation? (s : List Char) : Option (List Char) :=
  (afterLineBreak? (s.dropWhile isBlank)).map dropBlankLines

/-- The rest of a text on several lines, of at most so many characters. Escapes count in double
quotes only. -/
def longBody (quote : Char) : Nat → Scan (List Char)
  | 0 => failure
  | n + 1 => do
    let s ← rest
    match s with
    | [] => failure
    | c :: after =>
      if c = quote then
        let quotes := quoteRun quote s
        set (s.drop quotes)
        if quotes < 3 then return List.replicate quotes quote ++ (← longBody quote n)
        else return List.replicate (quotes - 3) quote
      else if c = '\\' && quote = '"' then
        match afterContinuation? after with
        | some after =>
          set after
          longBody quote n
        | none =>
          set after
          return (← escape) :: (← longBody quote n)
      else
        match afterLineBreak? s with
        | some after =>
          set after
          return '\n' :: (← longBody quote n)
        | none =>
          if isCommentChar c then
            set after
            return c :: (← longBody quote n)
          else failure

/-- A text on one line, in either quotes. -/
def shortText : Scan String := do
  match ← rest with
  | '"' :: s =>
    set s
    return String.ofList (← basicBody (s.length + 1))
  | '\'' :: s =>
    set s
    return String.ofList (← literalBody)
  | _ => failure

/-- A text in any form. A line break right after three opening quotes is dropped. -/
def text : Scan String := do
  match ← rest with
  | c :: d :: e :: s =>
    if (c = '"' ∨ c = '\'') ∧ d = c ∧ e = c then
      let s := (afterLineBreak? s).getD s
      set s
      return String.ofList (← longBody c (s.length + 1))
    else shortText
  | _ => shortText

/-! ### Keys -/

/-- A character of a key without quotes. -/
def isBareKeyChar (c : Char) : Bool :=
  c.isAlphanum || c == '-' || c == '_'

/-- One part of a key, with blanks around it. -/
def keyPart : Scan String := do
  blanks
  let part ← do
    match ← rest with
    | '"' :: _ | '\'' :: _ => shortText
    | _ =>
      match ← run isBareKeyChar with
      | [] => failure
      | name => pure (String.ofList name)
  blanks
  pure part

/-- A key of at most so many parts, with dots between them. -/
def keyParts : Nat → Scan (List String)
  | 0 => failure
  | n + 1 => do
    let part ← keyPart
    match ← rest with
    | '.' :: s =>
      set s
      return part :: (← keyParts n)
    | _ => pure [part]

/-- A key. -/
def key : Scan (List String) := do
  keyParts ((← rest).length + 1)

/-! ### Whole numbers -/

/-- Digits after the first one, which may be parted by single underscores. -/
def moreDigits (isDigit : Char → Bool) : List Char → Option (List Char × List Char)
  | '_' :: c :: s =>
    if isDigit c then (moreDigits isDigit s).map fun (digits, s) => (c :: digits, s) else none
  | c :: s =>
    if c = '_' then none
    else if isDigit c then (moreDigits isDigit s).map fun (digits, s) => (c :: digits, s)
    else some ([], c :: s)
  | [] => some ([], [])

/-- At least one digit, parted by single underscores or not. -/
def digits (isDigit : Char → Bool) : Scan (List Char) := fun s =>
  match s with
  | c :: s =>
    if isDigit c then (moreDigits isDigit s).map fun (digits, s) => (c :: digits, s) else none
  | [] => none

/-- A decimal number without a sign; only zero itself begins with a zero. -/
def decimal : Scan Nat := do
  match ← rest with
  | '0' :: s =>
    set s
    pure 0
  | _ => return numberOf 10 (← digits Char.isDigit)

/-- A whole number that fits 64 bits: decimal with an optional sign, or in another base. -/
def integer : Scan Int := do
  let value : Int ← do
    match ← rest with
    | '0' :: 'x' :: s =>
      set s
      pure (numberOf 16 (← digits isHexDigit) : Int)
    | '0' :: 'o' :: s =>
      set s
      pure (numberOf 8 (← digits fun c => '0' ≤ c && c ≤ '7') : Int)
    | '0' :: 'b' :: s =>
      set s
      pure (numberOf 2 (← digits fun c => c == '0' || c == '1') : Int)
    | '-' :: s =>
      set s
      pure (-(← decimal : Int))
    | '+' :: s =>
      set s
      pure (← decimal : Int)
    | _ => pure (← decimal : Int)
  if Int64.minValue.toInt ≤ value ∧ value ≤ Int64.maxValue.toInt then pure value else failure

end Scan

end JetSql.Toml
