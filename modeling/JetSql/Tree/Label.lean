/-
One-line labels of tree nodes, for people who look at a tree: the kind, and what tells the node
from others of its kind.
-/

import JetSql.Text.Escape
import JetSql.Tree.Basic

namespace JetSql

/-- A literal with the kind of its value. -/
def Literal.label : Literal → String
  | .string value quote =>
    "String \x7b value: " ++ Text.quoteText value ++ ", quote: " ++ Text.quoteChar quote ++ " \x7d"
  | .number text => "Number(" ++ Text.quoteText text ++ ")"
  | .bool value => "Bool(" ++ (if value then "true" else "false") ++ ")"
  | .null => "Null"
  | .date text => "Date(" ++ Text.quoteText text ++ ")"

/-- A dotted name without its brackets. -/
def dottedName (parts : List Part) : String :=
  String.intercalate "." (parts.map Part.name)

/-- What the label of a node adds to the name of its kind. -/
def Node.detail : Node → Option String
  | .operator op => some op.symbol
  | .logical _ op _ => some op.symbol
  | .arithmetic _ op _ => some op.symbol
  | .call callee _ => some callee
  | .join _ kind _ _ => some kind.symbol
  | .isNull _ true | .inList _ _ true | .between _ _ _ true => some "NOT"
  | .identifier parts => some (dottedName parts)
  | .literal value => some value.label
  | .selectItem _ (some part) => some ("AS " ++ part.name)
  | _ => none

/-- The label of a node. -/
def Node.label (node : Node) : String :=
  match node.detail with
  | none => node.kind.name
  | some detail => node.kind.name ++ " " ++ detail

end JetSql
