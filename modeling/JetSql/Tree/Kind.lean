/-
The kinds of nodes in a statement tree: a closed list of 22, each with its own name.
-/

namespace JetSql

/-- The kind of a tree node. -/
inductive Kind where
  | query | selectItem | tableRef | join | orderItem | logical | not | comparison | operator
  | isNull | inList | between | arithmetic | negate | conditional | call | grouped | identifier
  | literal | star | qualifiedStar | crosstab
deriving DecidableEq, Repr

namespace Kind

/-- Every kind, statements first. -/
def all : List Kind :=
  [query, selectItem, tableRef, join, orderItem, logical, not, comparison, operator, isNull,
   inList, between, arithmetic, negate, conditional, call, grouped, identifier, literal, star,
   qualifiedStar, crosstab]

/-- The list is complete. -/
theorem mem_all (kind : Kind) : kind ∈ all := by
  cases kind <;> decide

/-- No kind is listed twice. -/
theorem nodup_all : all.Nodup := by
  decide

/-- The name of a kind in trees, listings and messages. -/
def name : Kind → String
  | query => "Query"
  | selectItem => "SelectItem"
  | tableRef => "TableRef"
  | join => "Join"
  | orderItem => "OrderItem"
  | logical => "LogicalExpr"
  | not => "NotExpr"
  | comparison => "ComparisonExpr"
  | operator => "Operator"
  | isNull => "IsNull"
  | inList => "InList"
  | between => "Between"
  | arithmetic => "ArithmeticExpr"
  | negate => "Negate"
  | conditional => "ConditionalCall"
  | call => "FunctionCall"
  | grouped => "Grouped"
  | identifier => "Identifier"
  | literal => "Literal"
  | star => "Star"
  | qualifiedStar => "QualifiedStar"
  | crosstab => "Crosstab"

/-- Different kinds have different names. -/
theorem nodup_names : (all.map name).Nodup := by
  decide

end Kind

end JetSql
