/-
Words: what a bare name is made of. A word begins with a letter of any script or an underscore, and
goes on with letters, digits and number signs of any script, and underscores.
-/

import JetSql.Text.Alphabetic
import JetSql.Text.Numeric

namespace JetSql.Text

/-- Whether a word may begin with the character. -/
def isWordStart (c : Char) : Bool :=
  isAlphabetic c || c == '_'

/-- Whether a word may go on with the character. -/
def isWordChar (c : Char) : Bool :=
  isAlphabetic c || isNumeric c || c == '_'

theorem isWordChar_of_isWordStart {c : Char} (h : isWordStart c = true) : isWordChar c = true := by
  simp only [isWordStart, isWordChar, Bool.or_eq_true] at h ⊢
  rcases h with h | h
  · exact .inl (.inl h)
  · exact .inr h

/-- Whether a text is one word. -/
def isWord : List Char → Bool
  | [] => false
  | c :: rest => isWordStart c && rest.all isWordChar

/-- Whether two words are the same up to the case of ASCII letters. -/
def sameWord (a b : String) : Bool :=
  a.toLower == b.toLower

end JetSql.Text
