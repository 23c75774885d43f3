/-
Operations as the targets write them: the templates for whole division and for joining texts, and
the parentheses of operands.
-/

import JetSql.Proofs.Target.Leaf

namespace JetSql.Target

open Node Renderer Text

variable {renderer : Renderer} {node : Node} {text : String}

/-! ### Templates -/

/-- An operand of a chain for SQLite, where a missing value is the empty text. -/
def coalesced (text : List Char) : List Char :=
  "COALESCE".toList ++ '(' :: (text ++ ", ''".toList ++ [')'])

theorem coalesced_eq (text : List Char) :
    coalesced text = "COALESCE".toList ++ '(' :: (text ++ ", ''".toList ++ [')']) := by
  exact Eq.refl _

theorem toList_coalesced (part : String) :
    ("COALESCE(" ++ part ++ ", '')").toList = coalesced part.toList := by
  have hopening : "COALESCE(".toList = "COALESCE".toList ++ ['('] := by decide
  have hclosing : ", '')".toList = ", ''".toList ++ [')'] := by decide
  rw [String.toList_append, String.toList_append, hopening, hclosing, coalesced_eq]
  simp only [List.append_assoc, List.cons_append, List.nil_append]

theorem toList_concat_postgres (parts : List String) : (Dialect.postgres.concat parts).toList =
    "CONCAT".toList ++ '(' :: (commas (parts.map String.toList) ++ [')']) := by
  simp only [Dialect.concat, String.toList_append, String.toList_intercalate, List.append_assoc]
  rfl

theorem toList_concat_mysql (parts : List String) : (Dialect.mysql.concat parts).toList =
    "CONCAT_WS".toList ++ '(' :: ("'', ".toList ++ commas (parts.map String.toList) ++ [')']) := by
  simp only [Dialect.concat, String.toList_append, String.toList_intercalate, List.append_assoc]
  rfl

theorem toList_concat_sqlite (parts : List String) : (Dialect.sqlite.concat parts).toList =
    " || ".toList.intercalate (parts.map fun part => coalesced part.toList) := by
  have hparts : (parts.map fun part => "COALESCE(" ++ part ++ ", '')").map String.toList =
      parts.map fun part => coalesced part.toList := by
    rw [List.map_map]
    exact List.map_congr_left fun part _ => toList_coalesced part
  rw [← hparts, ← String.toList_intercalate]
  rfl

theorem toList_intDiv_postgres (left right : String) : (Dialect.postgres.intDiv left right).toList =
    "DIV".toList ++ '(' :: (left.toList ++ ", ".toList ++ right.toList ++ [')']) := by
  simp only [Dialect.intDiv, String.toList_append, List.append_assoc]
  rfl

theorem toList_intDiv_mysql (left right : String) : (Dialect.mysql.intDiv left right).toList =
    left.toList ++ ' ' :: ("DIV".toList ++ ' ' :: right.toList) := by
  simp only [Dialect.intDiv, String.toList_append, List.append_assoc]
  rfl

theorem toList_intDiv_sqlite (left right : String) : (Dialect.sqlite.intDiv left right).toList =
    "CAST".toList ++ '(' :: (left.toList ++ ' ' :: ("/".toList ++ ' ' :: right.toList) ++
      " AS INTEGER".toList ++ [')']) := by
  simp only [Dialect.intDiv, String.toList_append, List.append_assoc]
  rfl

/-! ### Balanced operands -/

theorem balanced_emptyText : Balanced "''".toList :=
  balanced_quoted (rfl : isQuote '\'' = true) (rfl : paired '\'' [] = true)

theorem balanced_comma : Balanced ", ".toList :=
  balanced_of_all (by decide)

theorem balanced_infixed {left right : List Char} {mark : String} (hleft : Balanced left)
    (hmark : mark.toList.all isBare = true) (hright : Balanced right) :
    Balanced (left ++ ' ' :: (mark.toList ++ ' ' :: right)) :=
  hleft.append (.cons ((balanced_of_all hmark).append (hright.cons (by decide))) (by decide))

theorem balanced_commas {texts : List (List Char)} (h : ∀ text ∈ texts, Balanced text) :
    Balanced (commas texts) :=
  balanced_intercalate balanced_comma h

/-- Parentheses around a text are part of it. -/
theorem balanced_parenthesized (h : Balanced text.toList) : Balanced ("(" ++ text ++ ")").toList := by
  simpa using h.parens

theorem balanced_operandText {parent : ArithOp} {onLeft : Bool} (h : Balanced text.toList) :
    Balanced (operandText parent onLeft node text).toList := by
  unfold operandText
  split
  · split
    · exact balanced_parenthesized h
    · exact h
  · exact h

end JetSql.Target
