/-
What a rendered tree quotes.

`Node.quotations` lists the quoted texts of a tree in the order in which they are rendered: strings,
dates and patterns in single quotes, names that were bracketed in the quotes of the dialect, and the
empty texts with which some dialects join texts.

* **`quotations_eq`, `quotations_concat`:** a node quotes what the nodes that are rendered for it do,
  and what it quotes itself.
-/

import JetSql.Proofs.Target.Lexing
import JetSql.Proofs.Target.Leaf
import JetSql.Proofs.Tree.Everywhere

namespace JetSql

open Target

/-! ### Quotations of leaves -/

/-- A bracketed part of a name. -/
def Part.quotations (dialect : Dialect) (part : Part) : List Quotation :=
  if part.bracketed then [⟨dialect.nameQuote, part.name.toList⟩] else []

/-- A string, as it is meant in the source, or a date. -/
def Literal.quotations : Literal → List Quotation
  | .string value quote => [⟨'\'', Text.undouble quote value.toList⟩]
  | .date text =>
    match Moment.ofText text with
    | .ok moment => [⟨'\'', moment.iso.toList⟩]
    | .error _ => []
  | .number _ | .bool _ | .null => []

/-- The empty text that is joined with others, if the dialect takes one first. -/
def Dialect.joinOpening : Dialect → List Quotation
  | .mysql => [⟨'\'', []⟩]
  | .postgres | .sqlite => []

/-- The empty text for a missing one, if the dialect takes one with every text that is joined. -/
def Dialect.joinClosing : Dialect → List Quotation
  | .sqlite => [⟨'\'', []⟩]
  | .postgres | .mysql => []

namespace Node

/-! ### Quotations of trees -/

/-- The nodes that are rendered for a node: those below it, but all operands of a chain of `&`, only
the conditional of a comparison that has one on its left, and no pattern. -/
def shown : Node → List Node
  | comparison (conditional condition thenValue elseValue) _ _ => [condition, thenValue, elseValue]
  | comparison left op right =>
    if Renderer.isPattern op right then [left, op] else [left, op, right]
  | arithmetic left .concat right => Renderer.concatOperands (arithmetic left .concat right)
  | node => node.children

/-- A string literal that is a pattern, and the escape character if the pattern needs it. -/
def patternQuotations : Node → List Quotation
  | literal (.string value quote) =>
    match Pattern.read (stringBody value quote) with
    | .ok pattern =>
      ⟨'\'', Text.undouble '\'' (pattern.flatMap Pattern.writeElement)⟩ ::
        if pattern.needsEscape then [⟨'\'', [Pattern.escape]⟩] else []
    | .error _ => []
  | _ => []

/-- What a node quotes apart from the nodes that are rendered for it. -/
def ownQuotations (dialect : Dialect) : Node → List Quotation
  | selectItem _ asName | tableRef _ asName => asName.toList.flatMap (Part.quotations dialect)
  | comparison (conditional ..) _ _ => []
  | comparison _ op right => if Renderer.isPattern op right then right.patternQuotations else []
  | identifier parts | qualifiedStar parts => parts.flatMap (Part.quotations dialect)
  | literal value => value.quotations
  | _ => []

theorem sizeOf_lt_of_mem_concatOperands {left right operand : Node}
    (h : operand ∈ Renderer.concatOperands (arithmetic left .concat right)) :
    sizeOf operand < sizeOf (arithmetic left .concat right) := by
  rw [Renderer.concatOperands, List.mem_append, List.mem_singleton] at h
  rcases h with h | rfl
  · have hle : sizeOf operand ≤ sizeOf left := by
      fun_induction Renderer.concatOperands left with
      | case1 left right ih =>
        rcases List.mem_append.mp h with h | h
        · exact Nat.le_trans (ih h) (Nat.le_of_lt (sizeOf_lt_of_mem_children (by simp [children])))
        · obtain rfl := List.mem_singleton.mp h
          exact Nat.le_of_lt (sizeOf_lt_of_mem_children (by simp [children]))
      | case2 left _ =>
        obtain rfl := List.mem_singleton.mp h
        exact Nat.le_refl _
    exact Nat.lt_of_le_of_lt hle (sizeOf_lt_of_mem_children (by simp [children]))
  · exact sizeOf_lt_of_mem_children (by simp [children])

theorem sizeOf_lt_of_mem_shown {node child : Node} (h : child ∈ node.shown) :
    sizeOf child < sizeOf node := by
  unfold shown at h
  split at h
  · rename_i condition thenValue elseValue op right
    have hleft : sizeOf (conditional condition thenValue elseValue) <
        sizeOf (comparison (conditional condition thenValue elseValue) op right) :=
      sizeOf_lt_of_mem_children (by simp [children])
    have hchild : child ∈ (conditional condition thenValue elseValue).children := h
    exact Nat.lt_trans (sizeOf_lt_of_mem_children hchild) hleft
  · split at h
    · exact sizeOf_lt_of_mem_children (List.mem_append_left [_] h)
    · exact sizeOf_lt_of_mem_children h
  · exact sizeOf_lt_of_mem_concatOperands h
  · exact sizeOf_lt_of_mem_children h

/-- The quoted texts of a tree in the order in which they are rendered. -/
def quotations (dialect : Dialect) (node : Node) : List Quotation :=
  match node with
  | arithmetic left .concat right =>
    dialect.joinOpening ++
      (shown (arithmetic left .concat right)).attach.flatMap fun ⟨operand, _⟩ =>
        quotations dialect operand ++ dialect.joinClosing
  | node =>
    node.shown.attach.flatMap (fun ⟨child, _⟩ => quotations dialect child) ++
      node.ownQuotations dialect
termination_by node
decreasing_by all_goals exact sizeOf_lt_of_mem_shown (by assumption)

theorem quotations_concat (dialect : Dialect) (left right : Node) :
    (arithmetic left .concat right).quotations dialect =
      dialect.joinOpening ++ (Renderer.concatOperands (arithmetic left .concat right)).flatMap
        fun operand => operand.quotations dialect ++ dialect.joinClosing := by
  rw [quotations]
  simp [List.flatMap_subtype, shown]

/-- Whether a node is a chain of `&`. -/
def isChain : Node → Bool
  | arithmetic _ op _ => op = .concat
  | _ => false

theorem quotations_eq (dialect : Dialect) {node : Node} (h : node.isChain = false) :
    node.quotations dialect =
      node.shown.flatMap (quotations dialect) ++ node.ownQuotations dialect := by
  rw [quotations]
  · simp [List.flatMap_subtype]
  · rintro left right rfl
    cases h

/-- What a node quotes for which the nodes below it are rendered, if it quotes nothing itself. -/
theorem quotations_of_children {dialect : Dialect} {node : Node}
    (hown : node.ownQuotations dialect = []) (hshown : node.shown = node.children)
    (hchain : node.isChain = false) :
    node.quotations dialect = node.children.flatMap (quotations dialect) := by
  rw [quotations_eq dialect hchain, hown, hshown, List.append_nil]

/-! ### Nodes that are rendered -/

/-- What holds everywhere in a chain holds everywhere in its operands. -/
theorem everywhere_of_mem_concatOperands {p : Node → Prop} {node operand : Node}
    (h : node.Everywhere p) (hoperand : operand ∈ Renderer.concatOperands node) :
    operand.Everywhere p := by
  fun_induction Renderer.concatOperands node with
  | case1 left right ih =>
    rcases List.mem_append.mp hoperand with hoperand | hoperand
    · exact ih (h.of_mem (by simp [children])) hoperand
    · obtain rfl := List.mem_singleton.mp hoperand
      exact h.of_mem (by simp [children])
  | case2 node _ =>
    obtain rfl := List.mem_singleton.mp hoperand
    exact h

/-- What holds everywhere in a tree holds everywhere in the nodes that are rendered for it. -/
theorem everywhere_of_mem_shown {p : Node → Prop} {node child : Node} (h : node.Everywhere p)
    (hchild : child ∈ node.shown) : child.Everywhere p := by
  unfold shown at hchild
  split at hchild
  · rename_i condition thenValue elseValue op right
    have hleft : (conditional condition thenValue elseValue).Everywhere p :=
      h.of_mem (by simp [children])
    exact hleft.of_mem hchild
  · split at hchild
    · exact h.of_mem (List.mem_append_left [_] hchild)
    · exact h.of_mem hchild
  · exact everywhere_of_mem_concatOperands h hchild
  · exact h.of_mem hchild

end Node

end JetSql
