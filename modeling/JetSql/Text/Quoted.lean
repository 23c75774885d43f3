/-
Delimited text: inside its delimiters the delimiter itself is written twice.

* `double` and `undouble` write and read the inside. **`undouble_double`:** what was written is read
  back, whatever the text holds.
* `enclose` writes the whole, delimiters included.
* `splitBody` reads the longest inside off a text: it stops before the first delimiter that is not
  part of a pair.
-/

namespace JetSql.Text

/-- The text with every occurrence of the delimiter written twice. -/
def double (delimiter : Char) : List Char → List Char
  | [] => []
  | c :: rest =>
    if c = delimiter then c :: c :: double delimiter rest else c :: double delimiter rest

/-- The text with every pair of delimiters, from the left, read as one. -/
def undouble (delimiter : Char) : List Char → List Char
  | [] => []
  | [c] => [c]
  | c :: d :: rest =>
    if c = delimiter ∧ d = delimiter then c :: undouble delimiter rest
    else c :: undouble delimiter (d :: rest)

/-- Doubling and then reading pairs as one gives the text again. -/
@[simp] theorem undouble_double (delimiter : Char) (cs : List Char) :
    undouble delimiter (double delimiter cs) = cs := by
  induction cs with
  | nil => rfl
  | cons c rest ih =>
    by_cases h : c = delimiter
    · simp [double, undouble, h, ih]
    · cases rest with
      | nil => simp [double, undouble, h]
      | cons d rest =>
        rw [double, if_neg h]
        by_cases hd : d = delimiter
        · simp only [double, hd, if_true] at ih ⊢
          rw [undouble, if_neg (by simp [h]), ih]
        · simp only [double, if_neg hd] at ih ⊢
          rw [undouble, if_neg (by simp [h]), ih]

/-- The text between delimiters. -/
def enclose (delimiter : Char) (body : List Char) : List Char :=
  delimiter :: (double delimiter body ++ [delimiter])

/-- The longest inside that a text begins with, delimiters still doubled, and what follows it. -/
def splitBody (delimiter : Char) : List Char → List Char × List Char
  | [] => ([], [])
  | [c] => if c = delimiter then ([], [c]) else ([c], [])
  | c :: d :: rest =>
    if c = delimiter then
      if d = delimiter then
        let (body, after) := splitBody delimiter rest
        (c :: d :: body, after)
      else ([], c :: d :: rest)
    else
      let (body, after) := splitBody delimiter (d :: rest)
      (c :: body, after)

/-- Splitting loses nothing. -/
theorem splitBody_append (delimiter : Char) (cs : List Char) :
    (splitBody delimiter cs).1 ++ (splitBody delimiter cs).2 = cs := by
  fun_induction splitBody delimiter cs <;> simp_all

end JetSql.Text
