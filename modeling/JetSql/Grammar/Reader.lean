/-
Readers: how a stretch of text is read as a piece of a statement.

A `Reader` comes to one of three outcomes. It is `ok`, with a value and the text that is left; it
is a `miss`, which tells how far the text made sense and perhaps what should have come there; or it
is a `halt`, an error that ends the whole reading.

* **A miss can be mended, a halt cannot.** `<|>` and `optional` go on after a miss only.
* **The furthest miss is told.** When both sides of `<|>` miss, the one that left less text is kept,
  and the first one if both left the same.
* `expecting` names what a miss should have found, unless the miss already tells.
* **A text can break the reading off.** Letters are compared in any case, and the Kelvin sign counts as
  a `K` there; but where a fixed text that was found so ends is told in bytes, as if every letter took
  one. `splitsCharacter` tells the texts where that end lies inside the sign.
-/

import JetSql.Error

namespace JetSql.Grammar

/-- What should have come where the reading missed. -/
inductive Expectation where
  | selectList | endOfStatement | selectAfterTransform | pivot | joinedTable | on | rightOperand
  | valueList | and | closingParenthesis
deriving DecidableEq, Repr

/-- The words for an expectation. -/
def Expectation.text : Expectation → String
  | selectList => "select list"
  | endOfStatement => "end of statement"
  | selectAfterTransform => "SELECT after TRANSFORM"
  | pivot => "PIVOT"
  | joinedTable => "joined table"
  | on => "ON"
  | rightOperand => "right operand"
  | valueList => "value list"
  | and => "AND"
  | closingParenthesis => "closing parenthesis"

/-- What reading comes to. -/
inductive Outcome (α : Type) where
  /-- A value, and the text left after it. -/
  | ok (value : α) (rest : List Char)
  /-- No value; the text made no sense from `rest` on. -/
  | miss (rest : List Char) (expected : Option Expectation)
  /-- An error that no other reading can mend. -/
  | halt (error : Error)
deriving Repr

namespace Outcome

variable {α : Type}

/-- The value that a reading found, and the text after it. -/
def found? : Outcome (Option α) → Option (α × List Char)
  | ok (some value) rest => some (value, rest)
  | ok none _ | miss .. | halt _ => none

/-- The outcome of a second attempt after a first one missed: of two misses the furthest is told. -/
def afterMiss (rest : List Char) (expected : Option Expectation) : Outcome α → Outcome α
  | miss rest' expected' =>
    if rest'.length < rest.length then miss rest' expected' else miss rest expected
  | outcome => outcome

/-- The outcome with an expectation for a miss that tells none. -/
def withExpectation (expectation : Expectation) : Outcome α → Outcome α
  | miss rest none => miss rest (some expectation)
  | outcome => outcome

end Outcome

/-- A way to read a value off the beginning of a text. -/
def Reader (α : Type) := List Char → Outcome α

namespace Reader

variable {α β : Type}

instance : Monad Reader where
  pure value := fun s => .ok value s
  bind reader next := fun s =>
    match reader s with
    | .ok value rest => next value rest
    | .miss rest expected => .miss rest expected
    | .halt error => .halt error

instance : LawfulMonad Reader := LawfulMonad.mk' Reader
  (by
    intro α reader
    funext s
    simp only [Functor.map]
    cases reader s <;> rfl)
  (by
    intro α β value next
    rfl)
  (by
    intro α β γ reader next last
    funext s
    simp only [bind]
    cases reader s <;> rfl)

/-- Reading one thing after another. -/
theorem bind_apply (reader : Reader α) (next : α → Reader β) (s : List Char) :
    (reader >>= next) s =
      match reader s with
      | .ok value rest => next value rest
      | .miss rest expected => .miss rest expected
      | .halt error => .halt error := rfl

/-- Reading nothing. -/
theorem pure_apply (value : α) (s : List Char) : (pure value : Reader α) s = .ok value s := rfl

/-- The first reading that does not miss. -/
protected def orElse (first : Reader α) (second : Unit → Reader α) : Reader α := fun s =>
  match first s with
  | .miss rest expected => (second () s).afterMiss rest expected
  | outcome => outcome

instance : OrElse (Reader α) where
  orElse := Reader.orElse

/-- The end of all reading. -/
def halt (error : Error) : Reader α := fun _ => .halt error

/-- A reading that may be missing; then nothing is consumed. -/
def optional (reader : Reader α) : Reader (Option α) := fun s =>
  match reader s with
  | .ok value rest => .ok (some value) rest
  | .miss .. => .ok none s
  | .halt error => .halt error

/-- A reading whose misses tell what should have come. -/
def expecting (expectation : Expectation) (reader : Reader α) : Reader α := fun s =>
  (reader s).withExpectation expectation

/-- A reading whose value must satisfy a test; otherwise it misses where it began. -/
def satisfying (reader : Reader α) (test : α → Bool) : Reader α := fun s =>
  match reader s with
  | .ok value rest => if test value then .ok value rest else .miss s none
  | outcome => outcome

/-- The first of several readings that does not miss; if all miss, nothing is found or consumed. -/
def firstOf : List (Reader α) → List Char → Outcome (Option α)
  | [], s => .ok none s
  | reader :: readers, s =>
    match reader s with
    | .ok value rest => .ok (some value) rest
    | .miss .. => firstOf readers s
    | .halt error => .halt error

theorem firstOf_cons (reader : Reader α) (readers : List (Reader α)) (s : List Char) :
    firstOf (reader :: readers) s =
      match reader s with
      | .ok value rest => .ok (some value) rest
      | .miss .. => firstOf readers s
      | .halt error => .halt error := rfl

/-- The end of the text. -/
def endOfText : Reader Unit := fun s =>
  match s with
  | [] => .ok () []
  | s => .miss s none

/-- One character. -/
def char (c : Char) : Reader Unit := fun s =>
  match s with
  | d :: rest => if d = c then .ok () rest else .miss s none
  | [] => .miss [] none

/-- What is left of a text that begins with a fixed one. -/
def dropText? : List Char → List Char → Option (List Char)
  | [], s => some s
  | _ :: _, [] => none
  | c :: cs, d :: s => if d = c then dropText? cs s else none

/-- What is left of a text that begins with a fixed one in any case. The fixed text is given in
upper case; case is that of ASCII letters, and `splitsCharacter` tells where that is not all. -/
def dropTextNoCase? : List Char → List Char → Option (List Char)
  | [], s => some s
  | _ :: _, [] => none
  | c :: cs, d :: s => if d.toUpper = c then dropTextNoCase? cs s else none

/-- The Kelvin sign. Its lower case is the letter `k`, and no other character outside ASCII has the
lower case of an ASCII letter. It takes three bytes. -/
def kelvinSign : Char := '\u212A'

/-- Whether a fixed text in upper case and a text agree as far as both reach, in any case of all
characters: the Kelvin sign is then a `K`. -/
def agreesInAnyCase : List Char → List Char → Bool
  | c :: cs, d :: s => (d.toUpper == c || (c == 'K' && d == kelvinSign)) && agreesInAnyCase cs s
  | _, _ => true

/-- Whether a text agrees with a fixed one through a Kelvin sign. A sign takes the bytes of three
letters, so the text is then long enough in bytes even where it ends early, and as many bytes as the
fixed text has end inside the sign if the `K` is the last letter but one, as in `LIKE`, the one
keyword that has any. -/
def splitsCharacter (fixed s : List Char) : Bool :=
  agreesInAnyCase fixed s && (s.take fixed.length).contains kelvinSign

/-- A fixed text. -/
def exactly (fixed : String) : Reader Unit := fun s =>
  match dropText? fixed.toList s with
  | some rest => .ok () rest
  | none => .miss s none

/-- The longest stretch of characters with a property. -/
def run (p : Char → Bool) : Reader (List Char) := fun s =>
  .ok (s.takeWhile p) (s.dropWhile p)

/-- The longest stretch of characters with a property, which may not be empty. -/
def run1 (p : Char → Bool) : Reader (List Char) := fun s =>
  match s.takeWhile p with
  | [] => .miss s none
  | cs => .ok cs (s.dropWhile p)

end Reader

end JetSql.Grammar
