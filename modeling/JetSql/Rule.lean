/-
How each kind of node is rendered, as a table for people. The rendering itself is
`JetSql.Renderer.nodeText`; `Rule.unsupported` is the rule of exactly those kinds that it refuses.
-/

import JetSql.Tree.Kind

namespace JetSql

/-- The way a kind of node is rendered. -/
inductive Rule where
  | identity | mapped | composite | comparison | conditional | unsupported
deriving DecidableEq, Repr

namespace Rule

/-- The name of a rule. -/
def name : Rule → String
  | identity => "Identity"
  | mapped => "Mapped"
  | composite => "Composite"
  | comparison => "Comparison"
  | conditional => "Conditional"
  | unsupported => "Unsupported"

/-- What a rule does. -/
def effect : Rule → String
  | identity => "emit source text unchanged"
  | mapped => "emit source text with dialect substitutions"
  | composite => "rewrite children and join"
  | comparison => "a op b; collapses to CASE when a is IIF"
  | conditional => "(CASE WHEN c THEN t ELSE f END)"
  | unsupported => "rejected: no target equivalent"

end Rule

/-- The rule of a kind. -/
def Kind.rule : Kind → Rule
  | .query | .selectItem | .tableRef | .join | .orderItem | .logical | .not | .isNull | .inList
  | .between | .negate | .grouped => .composite
  | .comparison => .comparison
  | .conditional => .conditional
  | .operator | .star => .identity
  | .arithmetic | .call | .identifier | .qualifiedStar | .literal => .mapped
  | .crosstab => .unsupported

/-- Every kind with its rule. -/
def Rule.table : List (Kind × Rule) :=
  Kind.all.map fun kind => (kind, kind.rule)

/-- The crosstab alone has no target. -/
theorem Kind.rule_eq_unsupported_iff {kind : Kind} :
    kind.rule = .unsupported ↔ kind = .crosstab := by
  cases kind <;> decide

end JetSql
