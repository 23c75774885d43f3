/-
The serialized form of a tree: a node becomes an object with one field, named for the node's kind
and holding the node's parts; the star is a text of its own.
-/

import JetSql.Json
import JetSql.Tree.Basic

namespace JetSql

/-- The serialized form of a part of a name. -/
def Part.toJson (part : Part) : Json :=
  .object [("name", .text part.name), ("bracketed", .bool part.bracketed)]

/-- The serialized form of a literal. -/
def Literal.toJson : Literal → Json
  | .string value quote =>
    .object [("String",
      .object [("value", .text value), ("quote", .text (String.singleton quote))])]
  | .number text => .object [("Number", .text text)]
  | .bool value => .object [("Bool", .bool value)]
  | .null => .text "Null"
  | .date text => .object [("Date", .text text)]

namespace Node

/-- The serialized form of something that may be absent. -/
def optionJson {α : Type} (toJson : α → Json) : Option α → Json
  | none => .null
  | some value => toJson value

mutual

/-- The serialized form of a tree. -/
def toJson : Node → Json
  | query clauses => .object [("Query", clausesJson clauses)]
  | selectItem expr asName =>
    .object [("SelectItem",
      .object [("expr", toJson expr), ("alias", optionJson Part.toJson asName)])]
  | tableRef table asName =>
    .object [("TableRef",
      .object [("name", toJson table), ("alias", optionJson Part.toJson asName)])]
  | join left kind right on =>
    .object [("Join",
      .object [("left", toJson left), ("kind", .text kind.tag), ("right", toJson right),
        ("on", toJson on)])]
  | orderItem expr order =>
    .object [("OrderItem",
      .object [("expr", toJson expr),
        ("order", optionJson (fun order => .text order.tag) order)])]
  | logical left op right =>
    .object [("LogicalExpr",
      .object [("left", toJson left), ("op", .text op.tag), ("right", toJson right)])]
  | .not expr => .object [("NotExpr", toJson expr)]
  | comparison left op right =>
    .object [("ComparisonExpr",
      .object [("left", toJson left), ("operator", toJson op), ("right", toJson right)])]
  | operator op => .object [("Operator", .text op.tag)]
  | isNull expr negated =>
    .object [("IsNull", .object [("expr", toJson expr), ("negated", .bool negated)])]
  | inList expr list negated =>
    .object [("InList",
      .object [("expr", toJson expr), ("list", .list (listJson list)),
        ("negated", .bool negated)])]
  | between expr low high negated =>
    .object [("Between",
      .object [("expr", toJson expr), ("low", toJson low), ("high", toJson high),
        ("negated", .bool negated)])]
  | arithmetic left op right =>
    .object [("ArithmeticExpr",
      .object [("left", toJson left), ("op", .text op.tag), ("right", toJson right)])]
  | negate expr => .object [("Negate", toJson expr)]
  | conditional condition thenValue elseValue =>
    .object [("ConditionalCall",
      .object [("condition", toJson condition), ("then_value", toJson thenValue),
        ("else_value", toJson elseValue)])]
  | call callee args =>
    .object [("FunctionCall", .object [("name", .text callee), ("args", .list (listJson args))])]
  | grouped expr => .object [("Grouped", toJson expr)]
  | identifier parts => .object [("Identifier", .list (parts.map Part.toJson))]
  | literal value => .object [("Literal", value.toJson)]
  | star => .text "Star"
  | qualifiedStar parts => .object [("QualifiedStar", .list (parts.map Part.toJson))]
  | crosstab value select pivot =>
    .object [("Crosstab",
      .object [("transform", toJson value), ("query", toJson select), ("pivot", toJson pivot)])]

/-- The serialized forms of the nodes of a list. -/
def listJson : List Node → List Json
  | [] => []
  | node :: nodes => toJson node :: listJson nodes

/-- The serialized form of a clause that may be absent. -/
def clauseJson : Option Node → Json
  | none => .null
  | some node => toJson node

/-- The serialized form of the clauses of a `SELECT`. -/
def clausesJson : Clauses Node → Json
  | ⟨distinct, top, items, tables, condition, groups, having, orders⟩ =>
    .object [("distinct", .bool distinct), ("top", optionJson .number top),
      ("items", .list (listJson items)), ("from", .list (listJson tables)),
      ("where_clause", clauseJson condition), ("group_by", .list (listJson groups)),
      ("having", clauseJson having), ("order_by", .list (listJson orders))]

end

end Node

end JetSql
