/-
What an expression of a target stands for.

Operators stand for operators, `%` for `MOD`, parentheses for what is in them. Whole division and
chains of `&` have the templates of the dialect. `Means` says this of expressions, and `Says` of
texts.
-/

import JetSql.Proofs.Target.Balanced

namespace JetSql

/-- Arithmetic: operators and signs over names, numbers, parentheses and calls. Anything may stand in
parentheses and in calls. -/
inductive Node.IsArithmetic : Node → Prop where
  | operation {left right : Node} {op : ArithOp} :
      left.IsArithmetic → right.IsArithmetic → IsArithmetic (.arithmetic left op right)
  | negate {expr : Node} : expr.IsArithmetic → IsArithmetic (.negate expr)
  | identifier (parts : List Part) : IsArithmetic (.identifier parts)
  | number (text : String) : IsArithmetic (.number text)
  | grouped (expr : Node) : IsArithmetic (.grouped expr)
  | call (callee : String) (args : List Node) : IsArithmetic (.call callee args)

namespace Target

open Node Renderer Text

/-! ### What an expression stands for -/

/-- The operator of a dialect that stands for an operator of the source. Whole division has one in
MySQL only, and joining texts has a template. -/
def infix? (dialect : Dialect) : ArithOp → Option Operator
  | .add => some .add
  | .sub => some .sub
  | .mul => some .mul
  | .div => some .div
  | .mod => some .rem
  | .intDiv => if dialect = .mysql then some .intDiv else none
  | .concat => none

/-- The operands of a chain of `&` that runs down the left. -/
inductive Chain : Node → List Node → Prop where
  | operand {node : Node} : (∀ left right, node ≠ .arithmetic left .concat right) → Chain node [node]
  | link {left right : Node} {operands : List Node} :
      Chain left operands → Chain (.arithmetic left .concat right) (operands ++ [right])

/-- A text with the empty text in place of a missing value. -/
def coalesce (text : List Char) : Expr :=
  .call "COALESCE".toList (text ++ ", ''".toList)

/-- A chain of `||` after what it begins with. -/
def joined (tree : Expr) (texts : List (List Char)) : Expr :=
  texts.foldl (fun tree text => .binary tree .join (coalesce text)) tree

mutual

/-- What an expression stands for. -/
inductive Means (renderer : Renderer) : Expr → Node → Prop where
  | identifier {parts : List Part} :
      Means renderer (.token (renderer.partsText parts).toList) (.identifier parts)
  | number {text : String} : Means renderer (.token text.toList) (.number text)
  | grouped {inside : List Char} {expr : Node} :
      Says renderer inside expr → Means renderer (.group inside) (.grouped expr)
  | call {callee : String} {args : List Node} {insides : List (List Char)} :
      List.Forall₂ (Says renderer) insides args →
        Means renderer (.call (renderer.targetName callee).toList (commas insides)) (.call callee args)
  | negate {operand : Expr} {expr : Node} :
      Means renderer operand expr → Means renderer (.minus operand) (.negate expr)
  | operation {left right : Expr} {op : Operator} {leftNode rightNode : Node} {sourceOp : ArithOp} :
      infix? renderer.dialect sourceOp = some op → Means renderer left leftNode →
        Means renderer right rightNode →
        Means renderer (.binary left op right) (.arithmetic leftNode sourceOp rightNode)
  /-- Parentheses of no node of their own. -/
  | inserted {inside : List Char} {expr : Expr} {node : Node} :
      read renderer.dialect inside = some expr → Means renderer expr node →
        Means renderer (.group inside) node
  | divCall {left right : List Char} {leftNode rightNode : Node} :
      renderer.dialect = .postgres → Says renderer left leftNode → Says renderer right rightNode →
        Means renderer (.call "DIV".toList (left ++ ", ".toList ++ right))
          (.arithmetic leftNode .intDiv rightNode)
  | divCast {inside : List Char} {left right : Expr} {leftNode rightNode : Node} :
      renderer.dialect = .sqlite →
        readPrefix .sqlite inside = some (.binary left .div right, " AS INTEGER".toList) →
        Means renderer left leftNode → Means renderer right rightNode →
        Means renderer (.call "CAST".toList inside) (.arithmetic leftNode .intDiv rightNode)
  | concatCall {left right : Node} {operands : List Node} {texts : List (List Char)} :
      renderer.dialect = .postgres → Chain (.arithmetic left .concat right) operands →
        List.Forall₂ (Says renderer) texts operands →
        Means renderer (.call "CONCAT".toList (commas texts)) (.arithmetic left .concat right)
  | concatSeparated {left right : Node} {operands : List Node} {texts : List (List Char)} :
      renderer.dialect = .mysql → Chain (.arithmetic left .concat right) operands →
        List.Forall₂ (Says renderer) texts operands →
        Means renderer (.call "CONCAT_WS".toList ("'', ".toList ++ commas texts))
          (.arithmetic left .concat right)
  | concatJoined {left right : Node} {operands : List Node} {first : List Char}
      {others : List (List Char)} :
      renderer.dialect = .sqlite → Chain (.arithmetic left .concat right) operands →
        List.Forall₂ (Says renderer) (first :: others) operands →
        Means renderer (joined (coalesce first) others) (.arithmetic left .concat right)

/-- What a text stands for: that of the expression it is read as if it is arithmetic, and whatever it
was rendered from if not. -/
inductive Says (renderer : Renderer) : List Char → Node → Prop where
  | arithmetic {text : List Char} {expr : Expr} {node : Node} :
      read renderer.dialect text = some expr → Means renderer expr node → Says renderer text node
  | other {text : String} {node : Node} {levels : Nat} :
      ¬ node.IsArithmetic → renderer.renderAt levels node = .ok text → Says renderer text.toList node

end

variable {node : Node}

/-! ### Chains -/

theorem chain_concatOperands (node : Node) : Chain node (concatOperands node) := by
  fun_induction concatOperands node with
  | case1 left right ih => exact .link ih
  | case2 node h => exact .operand h

theorem atomic_coalesced {text : List Char} (h : Balanced text) (dialect : Dialect) :
    Atomic dialect.nameQuote (coalesced text) (coalesce text) := by
  rw [coalesced_eq]
  exact atomic_call (isQuote_nameQuote dialect) (by decide) (by decide)
    (h.append (balanced_comma.append balanced_emptyText))

/-- A chain of `||` is read from left to right. -/
theorem spells_joined {begun : List Char} {tree : Expr} {texts : List (List Char)}
    (hbegun : Spells .sqlite begun tree) (htree : tree.Ordered) (hrank : 3 ≤ tree.rank)
    (htexts : ∀ text ∈ texts, Balanced text) :
    Spells .sqlite (begun ++ texts.flatMap fun text => " || ".toList ++ coalesced text)
        (joined tree texts) ∧ (joined tree texts).Ordered ∧ 3 ≤ (joined tree texts).rank := by
  induction texts generalizing begun tree with
  | nil => exact ⟨by simpa [joined] using hbegun, htree, hrank⟩
  | cons text texts ih =>
    obtain ⟨htext, htexts⟩ := List.forall_mem_cons.mp htexts
    have hjoin : Operator.join.IsOf .sqlite := rfl
    have hnext := hbegun.binary hjoin (atomic_coalesced htext .sqlite).spells
    have hordered : Expr.Ordered (.binary tree .join (coalesce text)) :=
      ⟨htree, trivial, hrank, Nat.lt_succ_self 3⟩
    obtain ⟨hspells, hrest⟩ := ih hnext hordered (Nat.le_refl 3) htexts
    refine ⟨?_, hrest⟩
    rw [List.flatMap_cons]
    simpa [Operator.symbol, joined] using hspells

end Target

end JetSql
