/-
The operators and small choices that occur in statements, each with its spelling in statements and
the tag it has in a serialized tree.

`ArithOp.precedence` ranks the arithmetic operators as the source language does: `* /` over `\` over
`MOD` over `+ -` over `&`. `ArithOp.isStandard` holds of the four that every target ranks the same.
-/

namespace JetSql

/-- A comparison operator. -/
inductive CompareOp where
  | eq | ne | lt | lte | gt | gte | like | notLike
deriving DecidableEq, Repr

/-- The spelling of a comparison operator. -/
def CompareOp.symbol : CompareOp → String
  | .eq => "="
  | .ne => "<>"
  | .lt => "<"
  | .lte => "<="
  | .gt => ">"
  | .gte => ">="
  | .like => "LIKE"
  | .notLike => "NOT LIKE"

/-- The tag of a comparison operator. -/
def CompareOp.tag : CompareOp → String
  | .eq => "Eq"
  | .ne => "Ne"
  | .lt => "Lt"
  | .lte => "Lte"
  | .gt => "Gt"
  | .gte => "Gte"
  | .like => "Like"
  | .notLike => "NotLike"

/-- Whether the right operand is a pattern when it is a string literal. -/
def CompareOp.takesPattern : CompareOp → Bool
  | .like | .notLike => true
  | _ => false

/-- An arithmetic operator, or `&`, which joins texts. -/
inductive ArithOp where
  | add | sub | mul | div | intDiv | mod | concat
deriving DecidableEq, Repr

/-- The spelling of an arithmetic operator. -/
def ArithOp.symbol : ArithOp → String
  | .add => "+"
  | .sub => "-"
  | .mul => "*"
  | .div => "/"
  | .intDiv => "\\"
  | .mod => "MOD"
  | .concat => "&"

/-- The tag of an arithmetic operator. -/
def ArithOp.tag : ArithOp → String
  | .add => "Add"
  | .sub => "Sub"
  | .mul => "Mul"
  | .div => "Div"
  | .intDiv => "IntDiv"
  | .mod => "Mod"
  | .concat => "Concat"

/-- How tightly an arithmetic operator binds in the source; a greater number is tighter. -/
def ArithOp.precedence : ArithOp → Nat
  | .mul | .div => 9
  | .intDiv => 8
  | .mod => 7
  | .add | .sub => 6
  | .concat => 5

/-- Whether every target ranks the operator as the source does. -/
def ArithOp.isStandard : ArithOp → Bool
  | .add | .sub | .mul | .div => true
  | .intDiv | .mod | .concat => false

/-- A logical connective. -/
inductive LogicOp where
  | and | or
deriving DecidableEq, Repr

/-- The spelling of a connective. -/
def LogicOp.symbol : LogicOp → String
  | .and => "AND"
  | .or => "OR"

/-- The tag of a connective. -/
def LogicOp.tag : LogicOp → String
  | .and => "And"
  | .or => "Or"

/-- How tightly a connective binds. -/
def LogicOp.precedence : LogicOp → Nat
  | .or => 1
  | .and => 2

/-- A written sort order. -/
inductive SortOrder where
  | asc | desc
deriving DecidableEq, Repr

/-- The spelling of a sort order. -/
def SortOrder.symbol : SortOrder → String
  | .asc => "ASC"
  | .desc => "DESC"

/-- The tag of a sort order. -/
def SortOrder.tag : SortOrder → String
  | .asc => "Asc"
  | .desc => "Desc"

/-- Which rows a join keeps. -/
inductive JoinKind where
  | inner | left | right
deriving DecidableEq, Repr

/-- The spelling of a join. -/
def JoinKind.symbol : JoinKind → String
  | .inner => "INNER JOIN"
  | .left => "LEFT JOIN"
  | .right => "RIGHT JOIN"

/-- The tag of a join. -/
def JoinKind.tag : JoinKind → String
  | .inner => "Inner"
  | .left => "Left"
  | .right => "Right"

end JetSql
