/-
Padding a text to a width, counted in characters; a text that is wide enough stays as it is.
-/

namespace JetSql.Text

/-- The text with enough of a character before it. -/
def padStart (width : Nat) (fill : Char) (s : String) : String :=
  String.ofList (List.replicate (width - s.length) fill) ++ s

/-- The text with enough blanks after it. -/
def padEnd (width : Nat) (s : String) : String :=
  s ++ String.ofList (List.replicate (width - s.length) ' ')

/-- A number in decimal, with zeros before it. -/
def zeroPadded (width n : Nat) : String :=
  padStart width '0' (toString n)

end JetSql.Text
