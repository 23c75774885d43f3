/-
The tree of a statement.

A `Node` is one construct of the source language; `Clauses` holds the clauses of one `SELECT`, over
any type of node. The tree keeps what was written: literals stay source text, a name remembers its
brackets, parentheses are nodes of their own.

* `Node.kind` names the construct, `Node.children` lists the nodes below it in source order.
* **`Node.sizeOf_lt_of_mem_children`** lets definitions recurse through `children`, and
  **`Node.inductionOnChildren`** is the matching induction principle.
* `Node.walk` is the walk: every node of the tree with its depth, parents before children.
-/

import JetSql.Tree.Kind
import JetSql.Tree.Operator

namespace JetSql

/-- One part of a dotted name. -/
structure Part where
  name : String
  /-- Written in brackets in the source. -/
  bracketed : Bool
deriving DecidableEq, Repr

/-- A literal, as written. -/
inductive Literal where
  /-- The text between the quotes, doubled quotes still doubled, and the quote. -/
  | string (value : String) (quote : Char)
  | number (text : String)
  | bool (value : Bool)
  | null
  /-- The text between the number signs. -/
  | date (text : String)
deriving DecidableEq, Repr

/-- The clauses of a `SELECT`. -/
structure Clauses (α : Type) where
  distinct : Bool
  /-- The number after `TOP`. -/
  top : Option Nat
  items : List α
  /-- What stands after `FROM`. -/
  tables : List α
  /-- What stands after `WHERE`. -/
  condition : Option α
  /-- What stands after `GROUP BY`. -/
  groups : List α
  having : Option α
  /-- What stands after `ORDER BY`. -/
  orders : List α
deriving Repr

/-- The nodes of all clauses, in the order in which the clauses are written. -/
def Clauses.nodes {α : Type} (clauses : Clauses α) : List α :=
  clauses.items ++ clauses.tables ++ clauses.condition.toList ++ clauses.groups ++
    clauses.having.toList ++ clauses.orders

/-- A construct of the source language. -/
inductive Node where
  | query (clauses : Clauses Node)
  | selectItem (expr : Node) (as : Option Part)
  | tableRef (table : Node) (as : Option Part)
  | join (left : Node) (kind : JoinKind) (right on : Node)
  | orderItem (expr : Node) (order : Option SortOrder)
  | logical (left : Node) (op : LogicOp) (right : Node)
  | not (expr : Node)
  /-- The operator is a node of its own; statements only ever hold an `operator` there. -/
  | comparison (left op right : Node)
  | operator (op : CompareOp)
  | isNull (expr : Node) (negated : Bool)
  | inList (expr : Node) (list : List Node) (negated : Bool)
  | between (expr low high : Node) (negated : Bool)
  | arithmetic (left : Node) (op : ArithOp) (right : Node)
  /-- A leading minus sign. -/
  | negate (expr : Node)
  /-- The conditional `IIF`, with exactly three arguments. -/
  | conditional (condition thenValue elseValue : Node)
  | call (callee : String) (args : List Node)
  | grouped (expr : Node)
  | identifier (parts : List Part)
  | literal (value : Literal)
  | star
  | qualifiedStar (parts : List Part)
  /-- The whole of `TRANSFORM … SELECT … PIVOT …`. -/
  | crosstab (value select pivot : Node)
deriving Repr

namespace Node

/-- The kind of a node. -/
def kind : Node → Kind
  | query .. => .query
  | selectItem .. => .selectItem
  | tableRef .. => .tableRef
  | join .. => .join
  | orderItem .. => .orderItem
  | logical .. => .logical
  | not .. => .not
  | comparison .. => .comparison
  | operator .. => .operator
  | isNull .. => .isNull
  | inList .. => .inList
  | between .. => .between
  | arithmetic .. => .arithmetic
  | negate .. => .negate
  | conditional .. => .conditional
  | call .. => .call
  | grouped .. => .grouped
  | identifier .. => .identifier
  | literal .. => .literal
  | star => .star
  | qualifiedStar .. => .qualifiedStar
  | crosstab .. => .crosstab

/-- The nodes directly below a node, in source order. -/
def children : Node → List Node
  | query clauses => clauses.nodes
  | selectItem expr _ | orderItem expr _ | not expr | negate expr | isNull expr _ | grouped expr =>
    [expr]
  | tableRef table _ => [table]
  | join left _ right on => [left, right, on]
  | inList expr list _ => expr :: list
  | between expr low high _ => [expr, low, high]
  | logical left _ right | arithmetic left _ right => [left, right]
  | comparison left op right => [left, op, right]
  | conditional condition thenValue elseValue => [condition, thenValue, elseValue]
  | call _ args => args
  | crosstab value select pivot => [value, select, pivot]
  | operator _ | identifier _ | literal _ | star | qualifiedStar _ => []

/-- A comparison with its operator. -/
def compare (left : Node) (op : CompareOp) (right : Node) : Node :=
  comparison left (operator op) right

/-- A plain dotted name, cut at every dot. -/
def name (dotted : String) : Node :=
  identifier ((dotted.toList.splitOn '.').map fun part => ⟨String.ofList part, false⟩)

/-- A string literal in single quotes. -/
def string (value : String) : Node :=
  literal (.string value '\'')

/-- A number literal. -/
def number (text : String) : Node :=
  literal (.number text)

/-! ### Recursion through the children -/

/-- A child is smaller than its parent. -/
theorem sizeOf_lt_of_mem_children {node child : Node} (h : child ∈ node.children) :
    sizeOf child < sizeOf node := by
  have inList {list : List Node} (h : child ∈ list) : sizeOf child < sizeOf list :=
    List.sizeOf_lt_of_mem h
  have inOption {option : Option Node} (h : child ∈ option.toList) :
      sizeOf child < sizeOf option := by
    cases option <;> simp_all
  cases node with
  | query clauses =>
    cases clauses
    simp only [children, Clauses.nodes, List.mem_append] at h
    rcases h with ((((h | h) | h) | h) | h) | h <;>
      first | have := inOption h | have := inList h
    all_goals simp; omega
  | inList expr list negated =>
    rw [children, List.mem_cons] at h
    rcases h with rfl | h
    · simp; omega
    · have := inList h
      simp; omega
  | call callee args =>
    have : sizeOf child < sizeOf args := inList h
    simp; omega
  | _ =>
    simp only [children, List.mem_cons, List.not_mem_nil, or_false] at h <;>
      rcases h with rfl | rfl | rfl <;> simp <;> omega

/-- Induction on the tree: what passes from the children of every node to that node holds of
every node. -/
theorem inductionOnChildren {motive : Node → Prop}
    (step : ∀ node, (∀ child ∈ node.children, motive child) → motive node) (node : Node) :
    motive node :=
  step node fun child _ => inductionOnChildren step child
termination_by node
decreasing_by exact sizeOf_lt_of_mem_children (by assumption)

/-! ### The walk -/

/-- Every node of a tree with its depth, parents before children and children in order. -/
def walk (depth : Nat) (node : Node) : List (Nat × Node) :=
  (depth, node) :: node.children.attach.flatMap fun ⟨child, _⟩ => walk (depth + 1) child
termination_by node
decreasing_by exact sizeOf_lt_of_mem_children (by assumption)

/-- The walk visits the node itself, then walks its children one level deeper. -/
theorem walk_eq (depth : Nat) (node : Node) :
    node.walk depth = (depth, node) :: node.children.flatMap (walk (depth + 1)) := by
  rw [walk]
  simp [List.flatMap_subtype]

end Node

end JetSql
