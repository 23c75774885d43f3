/-
Positions in a source text, for a reader: lines and columns, both counted from one.

* `Position.after` is the position reached when a given stretch of text lies behind. A line break
  belongs to the line that it ends; a column counts characters.
* `Position.ofByte` finds the position of an offset that counts bytes of UTF-8.
-/

namespace JetSql

/-- A line and a column, both from one. -/
structure Position where
  line : Nat
  column : Nat
deriving DecidableEq, Repr

namespace Position

/-- The position right after a stretch of text that begins the source. -/
def after (before : List Char) : Position where
  line := before.count '\n' + 1
  column := (before.reverse.takeWhile (· != '\n')).length + 1

/-- The source begins at line one, column one. -/
@[simp] theorem after_nil : after [] = ⟨1, 1⟩ := rfl

/-- A line break opens the next line. -/
theorem after_lineBreak (before : List Char) :
    after (before ++ ['\n']) = ⟨(after before).line + 1, 1⟩ := by
  simp [after]

/-- Any other character moves one column on. -/
theorem after_char (before : List Char) {c : Char} (h : c ≠ '\n') :
    after (before ++ [c]) = ⟨(after before).line, (after before).column + 1⟩ := by
  simp [after, h]

/-- The characters of a text that lie within its first bytes. -/
def takeBytes : Nat → List Char → List Char
  | _, [] => []
  | bytes, c :: rest =>
    if c.utf8Size ≤ bytes then c :: takeBytes (bytes - c.utf8Size) rest else []

/-- The position of a byte offset; past the end it is the position of the end. -/
def ofByte (source : String) (offset : Nat) : Position :=
  after (takeBytes offset source.toList)

end Position

end JetSql
