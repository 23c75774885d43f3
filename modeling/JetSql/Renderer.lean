/-
Rendering of statement trees.

A `Renderer` has a target, the renames that are in force, and a limit on depth. `render` gives
the whole text or one error.

* **One level per node.** `renderAt` runs on the number of levels that are left; a node without a
  level is an error. All operands of a chain of `&` stand one level below the chain.
* **`nodeText`** is the text of one node, given the texts of the nodes below it. It is where every
  template stands, and it says in which order the nodes below are rendered.
* A comparison whose left operand is a conditional is that conditional; the rest of it is dropped.
-/

import JetSql.Calendar.Written
import JetSql.Config
import JetSql.Pattern
import JetSql.Tree.Basic

namespace JetSql

/-- A target with renames and a limit. -/
structure Renderer where
  dialect : Dialect
  /-- Target names of functions by source names in upper case. -/
  renames : Dictionary
  maxDepth : Nat
deriving DecidableEq, Repr

namespace Renderer

/-! ### Setting up -/

/-- The renderer of a dialect with its own renames. -/
def ofDialect (dialect : Dialect) : Renderer :=
  ⟨dialect, .ofList dialect.renames, Config.default.maxDepth⟩

/-- The renderer with one more rename. Functions are called in any case of ASCII letters. -/
def rename (renderer : Renderer) (source target : String) : Renderer :=
  { renderer with renames := renderer.renames.insert source.toUpper target }

/-- The renderer with another limit. -/
def withMaxDepth (renderer : Renderer) (maxDepth : Nat) : Renderer :=
  { renderer with maxDepth }

/-- The renderer of a configuration: its renames come after those of the dialect. -/
def ofConfig (config : Config) : Renderer :=
  config.functions.entries.foldl (fun renderer (source, target) => renderer.rename source target)
    ((ofDialect config.dialect).withMaxDepth config.maxDepth)

/-- The target name of a function. -/
def targetName (renderer : Renderer) (function : String) : String :=
  (renderer.renames.get? function.toUpper).getD function

/-! ### Leaves -/

/-- A part of a name. -/
def partText (renderer : Renderer) (part : Part) : String :=
  if part.bracketed then renderer.dialect.quoteName part.name else part.name

/-- A dotted name. -/
def partsText (renderer : Renderer) (parts : List Part) : String :=
  String.intercalate "." (parts.map renderer.partText)

/-- An alias with the blank before it, or nothing. -/
def aliasText (renderer : Renderer) : Option Part → String
  | none => ""
  | some part => " AS " ++ renderer.partText part

/-- A date, with or without a time. -/
def momentText (renderer : Renderer) (moment : Moment) : String :=
  match moment with
  | .day _ => renderer.dialect.date moment.iso
  | .timestamp .. => renderer.dialect.timestamp moment.iso

/-- A literal. -/
def literalText (renderer : Renderer) : Literal → Except Error String
  | .string value quote => .ok (stringText value quote)
  | .number text => .ok text
  | .bool value => .ok (renderer.dialect.boolean value)
  | .null => .ok "NULL"
  | .date text => do
    let moment ← Moment.ofText text
    return renderer.momentText moment

/-! ### Operators -/

/-- The operands of a chain of `&`, in source order: the chain runs down the left. -/
def concatOperands : Node → List Node
  | .arithmetic left .concat right => concatOperands left ++ [right]
  | node => [node]

/-- Whether an operand that is itself arithmetic needs parentheses. Where both operators rank alike
everywhere, they are needed against a looser operator, and on the right against an equal one. Any
other mix is made explicit, except for a chain of one rank. -/
def needsParens (parent child : ArithOp) (onLeft : Bool) : Bool :=
  if parent.isStandard && child.isStandard then
    child.precedence < parent.precedence || (!onLeft && child.precedence == parent.precedence)
  else !(onLeft && child.precedence == parent.precedence)

/-- The text of an operand, in parentheses if it needs them. -/
def operandText (parent : ArithOp) (onLeft : Bool) (operand : Node) (text : String) : String :=
  match operand with
  | .arithmetic _ op _ => if needsParens parent op onLeft then "(" ++ text ++ ")" else text
  | _ => text

/-- The text of an arithmetic operation other than `&`, from the texts of its operands. -/
def arithmeticText (renderer : Renderer) (op : ArithOp) (left right : String) : String :=
  match op with
  | .intDiv => renderer.dialect.intDiv left right
  | .mod => left ++ " % " ++ right
  | _ => left ++ " " ++ op.symbol ++ " " ++ right

/-- The text of a leading minus sign. Two of them in a row would open a comment, so one is kept from
another by parentheses. -/
def negateText (operand : Node) (text : String) : String :=
  match operand with
  | .arithmetic .. | .negate _ => "-(" ++ text ++ ")"
  | _ => "-" ++ text

/-- The word `NOT` with the blank after it, or nothing. -/
def notText (negated : Bool) : String :=
  if negated then "NOT " else ""

/-! ### Nodes -/

/-- The texts of several nodes with commas between them. -/
def listText (visit : Node → Except Error String) (nodes : List Node) : Except Error String := do
  return String.intercalate ", " (← nodes.mapM visit)

/-- The text of a clause with its keyword, or nothing. -/
def clauseText (visit : Node → Except Error String) (keyword : String) :
    Option Node → Except Error String
  | none => .ok ""
  | some node => return keyword ++ (← visit node)

/-- The text of a clause that lists nodes, or nothing if it lists none. -/
def clauseListText (visit : Node → Except Error String) (keyword : String) (nodes : List Node) :
    Except Error String :=
  if nodes.isEmpty then .ok "" else return keyword ++ (← listText visit nodes)

/-- The text of a `SELECT`. A row count becomes a limit at the end. -/
def selectText (renderer : Renderer) (visit : Node → Except Error String)
    (clauses : Clauses Node) : Except Error String := do
  let items ← listText visit clauses.items
  let tables ← clauseListText visit " FROM " clauses.tables
  let condition ← clauseText visit " WHERE " clauses.condition
  let groups ← clauseListText visit " GROUP BY " clauses.groups
  let having ← clauseText visit " HAVING " clauses.having
  let orders ← clauseListText visit " ORDER BY " clauses.orders
  let opening := if clauses.distinct then "SELECT DISTINCT " else "SELECT "
  let limit := match clauses.top with
    | none => ""
    | some rows => " " ++ renderer.dialect.limit rows
  return opening ++ items ++ tables ++ condition ++ groups ++ having ++ orders ++ limit

/-- The text of a conditional. -/
def conditionalText (visit : Node → Except Error String) (condition thenValue elseValue : Node) :
    Except Error String := do
  return "(CASE WHEN " ++ (← visit condition) ++ " THEN " ++ (← visit thenValue) ++ " ELSE " ++
    (← visit elseValue) ++ " END)"

/-- The text of a comparison. The right operand is rendered first; a string literal there is a
pattern if the operator takes one. -/
def comparisonText (visit : Node → Except Error String) (left op right : Node) :
    Except Error String :=
  match left with
  | .conditional condition thenValue elseValue =>
    conditionalText visit condition thenValue elseValue
  | left => do
    let rightText ← match op, right with
      | .operator symbol, .literal (.string value quote) =>
        if symbol.takesPattern then patternText value quote else visit right
      | _, right => visit right
    return (← visit left) ++ " " ++ (← visit op) ++ " " ++ rightText

/-- The text of a node, given how the nodes below it are rendered. -/
def nodeText (renderer : Renderer) (visit : Node → Except Error String) :
    Node → Except Error String
  | .query clauses => renderer.selectText visit clauses
  | .selectItem expr asName => return (← visit expr) ++ renderer.aliasText asName
  | .tableRef table asName => return (← visit table) ++ renderer.aliasText asName
  | .join left kind right on =>
    return (← visit left) ++ " " ++ kind.symbol ++ " " ++ (← visit right) ++ " ON " ++ (← visit on)
  | .orderItem expr none => visit expr
  | .orderItem expr (some order) => return (← visit expr) ++ " " ++ order.symbol
  | .logical left op right =>
    return (← visit left) ++ " " ++ op.symbol ++ " " ++ (← visit right)
  | .not expr => return "NOT " ++ (← visit expr)
  | .comparison left op right => comparisonText visit left op right
  | .operator op => .ok op.symbol
  | .isNull expr negated => return (← visit expr) ++ " IS " ++ notText negated ++ "NULL"
  | .inList expr list negated =>
    return (← visit expr) ++ " " ++ notText negated ++ "IN (" ++ (← listText visit list) ++ ")"
  | .between expr low high negated =>
    return (← visit expr) ++ " " ++ notText negated ++ "BETWEEN " ++ (← visit low) ++ " AND " ++
      (← visit high)
  | .arithmetic left .concat right => do
    return renderer.dialect.concat
      (← (concatOperands (.arithmetic left .concat right)).mapM visit)
  | .arithmetic left op right => do
    let leftText ← visit left
    let rightText ← visit right
    return renderer.arithmeticText op (operandText op true left leftText)
      (operandText op false right rightText)
  | .negate expr => return negateText expr (← visit expr)
  | .conditional condition thenValue elseValue =>
    conditionalText visit condition thenValue elseValue
  | .call callee args => return renderer.targetName callee ++ "(" ++ (← listText visit args) ++ ")"
  | .grouped expr => return "(" ++ (← visit expr) ++ ")"
  | .identifier parts => .ok (renderer.partsText parts)
  | .literal value => renderer.literalText value
  | .star => .ok "*"
  | .qualifiedStar parts => .ok (renderer.partsText parts ++ ".*")
  | .crosstab .. => .error (.unsupported .crosstab)

/-! ### Trees -/

/-- The text of a node when so many levels are left for it and the nodes below it. -/
def renderAt (renderer : Renderer) : Nat → Node → Except Error String
  | 0, _ => .error (.tooDeep (renderer.maxDepth + 1) renderer.maxDepth)
  | levels + 1, node => renderer.nodeText (renderer.renderAt levels) node

/-- The text of a tree. -/
def render (renderer : Renderer) (node : Node) : Except Error String :=
  renderer.renderAt renderer.maxDepth node

end Renderer

end JetSql
