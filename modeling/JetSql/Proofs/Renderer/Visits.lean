/-
When rendering fails, and with which error.

Rendering goes through a tree node by node. `Node.visits` lists the nodes that it goes through, in
order and each with its level: the root at level one, and below each node the nodes of
`Node.visited`. What a node says of itself is `Node.fault?`, and `faultWithin` adds the limit to it.
None of this asks for a dialect or for renames.

* **`errorOf_nodeText`:** a node fails with its own error, or else with that of the first node that
  fails below it.
* **`render_outcome`:** a tree fails with the error of the first visit that is at fault, and with no
  other; it is rendered if there is none.
* **`render_alike`:** so two targets refuse the same trees and the same statements, with the same
  errors.
-/

import JetSql.Proofs.Renderer.Limit
import JetSql.Proofs.Target.Quotation
import JetSql.Rule

namespace JetSql

/-! ### Errors of a run -/

section

variable {α β γ : Type}

/-- What is found first in lists one after another is found first in the first list that holds any. -/
theorem findSome?_flatMap (f : β → Option γ) (lists : α → List β) (xs : List α) :
    (xs.flatMap lists).findSome? f = xs.findSome? fun x => (lists x).findSome? f := by
  induction xs with
  | nil => rfl
  | cons x xs ih =>
    rw [List.flatMap_cons, List.findSome?_append, ih, List.findSome?_cons]
    cases (lists x).findSome? f <;> rfl

/-- The error that a run ends with. -/
def errorOf : Except Error α → Option Error
  | .ok _ => none
  | .error error => some error

theorem errorOf_eq_some {run : Except Error α} {error : Error} :
    errorOf run = some error ↔ run = .error error := by
  cases run <;> simp [errorOf]

theorem errorOf_eq_none {run : Except Error α} : errorOf run = none ↔ ∃ value, run = .ok value := by
  cases run <;> simp [errorOf]

@[simp] theorem errorOf_pure (value : α) : errorOf (pure value) = none := rfl

/-- One run after another fails with the error of the first one, or else with that of the second, if
this does not depend on what the first one comes to. -/
theorem errorOf_bind {first : Except Error α} {next : α → Except Error β} {after : Option Error}
    (h : ∀ value, errorOf (next value) = after) :
    errorOf (first >>= next) = (errorOf first).or after := by
  cases first with
  | ok value => exact h value
  | error error => rfl

theorem errorOf_mapM (f : α → Except Error β) (xs : List α) :
    errorOf (xs.mapM f) = xs.findSome? fun x => errorOf (f x) := by
  induction xs with
  | nil => rfl
  | cons x xs ih =>
    have hrest (y : β) : errorOf (do return y :: (← xs.mapM f)) =
        xs.findSome? fun x => errorOf (f x) := by
      rw [errorOf_bind fun _ => errorOf_pure _, Option.or_none, ih]
    rw [List.mapM_cons, errorOf_bind hrest, List.findSome?_cons]
    cases errorOf (f x) <;> rfl

end

namespace Node

/-! ### Visits -/

/-- The nodes that are visited right below a node, in order. The operands of a chain of `&` are, and
the inner links of the chain are not. A comparison that has a conditional on its left passes on to
what stands in that. Any other comparison begins with its right operand, which is not visited if it
is a pattern. -/
def visited : Node → List Node
  | comparison (conditional condition thenValue elseValue) _ _ => [condition, thenValue, elseValue]
  | comparison left op right =>
    if Renderer.isPattern op right then [left, op] else [right, left, op]
  | arithmetic left .concat right => Renderer.concatOperands (arithmetic left .concat right)
  | node => node.children

/-- The nodes that are visited are those that are shown. -/
theorem visited_perm_shown (node : Node) : node.visited.Perm node.shown := by
  fun_cases visited node with
  | case1 => exact .refl _
  | case2 left op right hleft hpattern =>
    rw [shown, if_pos hpattern]
    exact hleft
  | case3 left op right hleft hpattern =>
    rw [shown, if_neg hpattern]
    · exact (List.perm_append_comm : ([right] ++ [left, op]).Perm _)
    · exact hleft
  | case4 => exact .refl _
  | case5 node hconditional hcomparison hchain =>
    rw [shown]
    · exact hconditional
    · exact hcomparison
    · exact hchain

theorem sizeOf_lt_of_mem_visited {node child : Node} (h : child ∈ node.visited) :
    sizeOf child < sizeOf node :=
  sizeOf_lt_of_mem_shown ((visited_perm_shown node).mem_iff.mp h)

/-- Every node that is visited with its level, in order, where the root stands at a level. -/
def visits (level : Nat) (node : Node) : List (Nat × Node) :=
  (level, node) :: node.visited.attach.flatMap fun ⟨child, _⟩ => visits (level + 1) child
termination_by node
decreasing_by exact sizeOf_lt_of_mem_visited (by assumption)

theorem visits_eq (level : Nat) (node : Node) :
    node.visits level = (level, node) :: node.visited.flatMap (visits (level + 1)) := by
  rw [visits]
  simp [List.flatMap_subtype]

theorem visited_comparison {left op right : Node}
    (hleft : ∀ condition thenValue elseValue, left ≠ conditional condition thenValue elseValue) :
    (comparison left op right).visited =
      if Renderer.isPattern op right then [left, op] else [right, left, op] := by
  rw [visited]
  exact hleft

/-! ### Faults -/

/-- What is wrong with a string literal that is a pattern, given the operator before it. -/
def patternFault? : Node → Node → Option Error
  | operator op, literal (.string value quote) =>
    if op.takesPattern then errorOf (patternText value quote) else none
  | _, _ => none

/-- What is wrong with a node itself: there is no rule for its kind, or it is a date that is none, or
a comparison with a pattern that no target has. A comparison that passes on to the conditional on its
left reads no pattern. -/
def fault? (node : Node) : Option Error :=
  if node.kind.rule = .unsupported then some (.unsupported node.kind)
  else
    match node with
    | comparison (conditional ..) _ _ => none
    | comparison _ op right => patternFault? op right
    | literal (.date text) => errorOf (Moment.ofText text)
    | _ => none

theorem fault?_comparison {left op right : Node}
    (hleft : ∀ condition thenValue elseValue, left ≠ conditional condition thenValue elseValue) :
    (comparison left op right).fault? = patternFault? op right := by
  have hrule : ¬Kind.comparison.rule = .unsupported := by decide
  rw [fault?, kind, if_neg hrule]
  exact hleft

/-- What is wrong with a visit under a limit. Whatever lies beyond the limit, the first level beyond
it is told. -/
def faultWithin (limit : Nat) (visit : Nat × Node) : Option Error :=
  if limit < visit.1 then some (.tooDeep (limit + 1) limit) else visit.2.fault?

theorem faultWithin_eq_none {limit : Nat} {visit : Nat × Node} :
    faultWithin limit visit = none ↔ visit.1 ≤ limit ∧ visit.2.fault? = none := by
  unfold faultWithin
  split
  · simp only [reduceCtorEq, false_iff, not_and]
    omega
  · simp only [iff_and_self]
    omega

end Node

namespace Renderer

open Node

/-! ### Templates -/

section Templates

variable (visit : Node → Except Error String)

/-- The error of the first of some nodes that fails. -/
def firstError (nodes : List Node) : Option Error :=
  nodes.findSome? fun node => errorOf (visit node)

@[simp] theorem firstError_nil : firstError visit [] = none := rfl

@[simp] theorem firstError_cons (node : Node) (nodes : List Node) :
    firstError visit (node :: nodes) = (errorOf (visit node)).or (firstError visit nodes) := by
  rw [firstError, List.findSome?_cons]
  cases errorOf (visit node) <;> rfl

@[simp] theorem firstError_append (nodes nodes' : List Node) :
    firstError visit (nodes ++ nodes') = (firstError visit nodes).or (firstError visit nodes') :=
  List.findSome?_append

theorem errorOf_listText (nodes : List Node) :
    errorOf (listText visit nodes) = firstError visit nodes := by
  rw [listText, errorOf_bind fun _ => errorOf_pure _, Option.or_none, errorOf_mapM, firstError]

theorem errorOf_clauseText (keyword : String) (clause : Option Node) :
    errorOf (clauseText visit keyword clause) = firstError visit clause.toList := by
  cases clause with
  | none => rfl
  | some node =>
    rw [clauseText, errorOf_bind fun _ => errorOf_pure _, Option.toList_some, firstError_cons,
      firstError_nil]

theorem errorOf_clauseListText (keyword : String) (nodes : List Node) :
    errorOf (clauseListText visit keyword nodes) = firstError visit nodes := by
  cases nodes with
  | nil => rfl
  | cons node nodes =>
    rw [clauseListText, List.isEmpty_cons, if_neg Bool.false_ne_true,
      errorOf_bind fun _ => errorOf_pure _, Option.or_none, errorOf_listText]

theorem errorOf_selectText (renderer : Renderer) (clauses : Clauses Node) :
    errorOf (renderer.selectText visit clauses) = firstError visit clauses.nodes := by
  unfold selectText
  rw [errorOf_bind fun _ => errorOf_bind fun _ => errorOf_bind fun _ => errorOf_bind fun _ =>
    errorOf_bind fun _ => errorOf_bind fun _ => errorOf_pure _]
  simp only [errorOf_listText, errorOf_clauseListText, errorOf_clauseText, Clauses.nodes,
    firstError_append, Option.or_none, Option.or_assoc]

/-- The error of a template that takes one text, two or three. -/
theorem errorOf_one (f : String → String) (node : Node) :
    errorOf (do return f (← visit node)) = firstError visit [node] := by
  rw [errorOf_bind fun _ => errorOf_pure _, firstError_cons, firstError_nil]

theorem errorOf_two (f : String → String → String) (first second : Node) :
    errorOf (do return f (← visit first) (← visit second)) = firstError visit [first, second] := by
  rw [errorOf_bind fun text => errorOf_one visit (f text) second, ← firstError_cons]

theorem errorOf_three (f : String → String → String → String) (first second third : Node) :
    errorOf (do return f (← visit first) (← visit second) (← visit third)) =
      firstError visit [first, second, third] := by
  rw [errorOf_bind fun text => errorOf_two visit (f text) second third, ← firstError_cons]

theorem errorOf_conditionalText (condition thenValue elseValue : Node) :
    errorOf (conditionalText visit condition thenValue elseValue) =
      firstError visit [condition, thenValue, elseValue] :=
  errorOf_three visit _ condition thenValue elseValue

/-- A comparison fails with the error of its pattern or of its right operand, and then with those of
its left operand and its operator, unless it passes on to a conditional. -/
theorem errorOf_comparisonText (left op right : Node) :
    errorOf (comparisonText visit left op right) =
      (comparison left op right).fault?.or (firstError visit (comparison left op right).visited) := by
  have hwhole (rightText : String) :
      errorOf (do return (← visit left) ++ " " ++ (← visit op) ++ " " ++ rightText) =
        firstError visit [left, op] :=
    errorOf_two visit (fun leftText opText => leftText ++ " " ++ opText ++ " " ++ rightText) left op
  by_cases hleft : ∃ condition thenValue elseValue, left = conditional condition thenValue elseValue
  · obtain ⟨condition, thenValue, elseValue, rfl⟩ := hleft
    exact errorOf_conditionalText visit condition thenValue elseValue
  simp only [not_exists] at hleft
  rw [comparisonText_eq op right hleft, errorOf_bind hwhole, fault?_comparison hleft,
    visited_comparison hleft]
  cases hpattern : isPattern op right with
  | false =>
    have hfault : patternFault? op right = none := by
      fun_cases patternFault? op right with
      | case1 symbol _ _ htakes => simp [isPattern, htakes] at hpattern
      | case2 => rfl
      | case3 => rfl
    rw [rightText_eq_visit hpattern, hfault, Option.none_or, if_neg Bool.false_ne_true,
      firstError_cons visit right]
  | true =>
    obtain ⟨symbol, value, quote, rfl, rfl, htakes⟩ := exists_of_isPattern hpattern
    rw [rightText, if_pos htakes, patternFault?, if_pos htakes, if_pos rfl]

end Templates

/-! ### Nodes and trees -/

/-- **A node fails with its own error, or else with that of the first node that fails below it.** -/
theorem errorOf_nodeText (renderer : Renderer) (visit : Node → Except Error String) (node : Node) :
    errorOf (renderer.nodeText visit node) = node.fault?.or (firstError visit node.visited) := by
  cases node with
  | query clauses => exact errorOf_selectText visit renderer clauses
  | selectItem expr | tableRef expr | not expr | isNull expr | negate expr | grouped expr =>
    exact errorOf_one visit _ expr
  | logical left op right => exact errorOf_two visit _ left right
  | join first _ second third | between first second third =>
    exact errorOf_three visit _ first second third
  | orderItem expr order =>
    cases order with
    | none => simp [nodeText, visited, children, fault?, kind, Kind.rule]
    | some order => exact errorOf_one visit _ expr
  | comparison left op right => exact errorOf_comparisonText visit left op right
  | inList expr list negated =>
    unfold nodeText
    rw [errorOf_bind fun _ => errorOf_bind fun _ => errorOf_pure _, errorOf_listText, Option.or_none]
    simp [visited, children, fault?, kind, Kind.rule]
  | arithmetic left op right =>
    cases op with
    | concat =>
      unfold nodeText
      rw [errorOf_bind fun _ => errorOf_pure _, errorOf_mapM, Option.or_none]
      rfl
    | _ => exact errorOf_two visit _ left right
  | conditional condition thenValue elseValue =>
    exact errorOf_conditionalText visit condition thenValue elseValue
  | call callee args =>
    unfold nodeText
    rw [errorOf_bind fun _ => errorOf_pure _, errorOf_listText, Option.or_none]
    rfl
  | literal value =>
    cases value with
    | date text =>
      unfold nodeText literalText
      rw [errorOf_bind fun _ => errorOf_pure _]
      simp [visited, children, fault?, kind, Kind.rule]
    | _ => rfl
  | operator | identifier | star | qualifiedStar => rfl
  | crosstab => rfl

/-- The levels that are left and the level of a node make the limit and one more. -/
theorem errorOf_renderAt (renderer : Renderer) {levels level : Nat}
    (hlevel : level + levels = renderer.maxDepth + 1) (node : Node) :
    errorOf (renderer.renderAt levels node) =
      (node.visits level).findSome? (faultWithin renderer.maxDepth) := by
  induction levels generalizing level node with
  | zero =>
    rw [visits_eq, List.findSome?_cons, faultWithin, if_pos (by omega)]
    rfl
  | succ levels ih =>
    have hbelow : firstError (renderer.renderAt levels) node.visited =
        (node.visited.flatMap (visits (level + 1))).findSome? (faultWithin renderer.maxDepth) := by
      rw [findSome?_flatMap, firstError]
      exact congrArg (node.visited.findSome? ·) (funext fun child => ih (by omega) child)
    rw [renderAt, errorOf_nodeText, hbelow, visits_eq, List.findSome?_cons, faultWithin,
      if_neg (by omega)]
    cases node.fault? <;> rfl

theorem errorOf_render (renderer : Renderer) (tree : Node) :
    errorOf (renderer.render tree) =
      (tree.visits 1).findSome? (faultWithin renderer.maxDepth) :=
  errorOf_renderAt renderer (Nat.add_comm 1 renderer.maxDepth) tree

end Renderer

open Node Renderer

/-- **A tree is rendered exactly if no visit lies beyond the limit and none is at fault; otherwise the
error is that of the first visit in order of which one of these holds.** -/
theorem render_outcome (renderer : Renderer) (tree : Node) :
    ((∃ text, renderer.render tree = .ok text) ↔
      ∀ visit ∈ tree.visits 1, visit.1 ≤ renderer.maxDepth ∧ visit.2.fault? = none) ∧
    ∀ error, renderer.render tree = .error error ↔
      (tree.visits 1).findSome? (faultWithin renderer.maxDepth) = some error := by
  constructor
  · rw [← errorOf_eq_none, errorOf_render, List.findSome?_eq_none_iff]
    exact forall₂_congr fun visit _ => faultWithin_eq_none
  · intro error
    rw [← errorOf_eq_some, errorOf_render]

/-- A comparison that passes on to the conditional on its left, before a pattern that no target has. -/
def passedOn : Node :=
  compare (conditional (name "x") (number "1") (number "2")) .like (string "#")

/-- Two texts joined with it, as a chain of two links. -/
def joined : Node :=
  arithmetic (arithmetic (string "a") .concat (string "b")) .concat passedOn

/-- Neither the inner link of the chain nor the conditional takes a level, and the pattern is not
read. -/
theorem visits_joined : joined.visits 1 =
    [(1, joined), (2, string "a"), (2, string "b"), (2, passedOn), (3, name "x"), (3, number "1"),
      (3, number "2")] := by
  simp [joined, passedOn, visits_eq, visited, concatOperands, children, Node.compare, string, number,
    name]

/-- So three levels are enough for it, and with two it is the condition that fails. -/
theorem render_outcome_joined :
    (∃ text, (Renderer.mk .postgres .empty 3).render joined = .ok text) ∧
      (Renderer.mk .postgres .empty 2).render joined = .error (.tooDeep 3 2) := by
  constructor
  · refine (render_outcome _ _).1.mpr ?_
    rw [visits_joined]
    simp only [List.forall_mem_cons]
    decide
  · refine ((render_outcome _ _).2 _).mpr ?_
    rw [visits_joined]
    decide

/-! ### Categories -/

theorem category_of_patternText {value : String} {quote : Char} {error : Error}
    (h : patternText value quote = .error error) : error.category = .inexpressible := by
  unfold patternText at h
  cases hread : Pattern.read (stringBody value quote) with
  | ok pattern => simp [hread] at h
  | error fault =>
    simp only [hread, Except.error.injEq] at h
    rw [← h]
    rfl

theorem category_of_ofText {text : String} {error : Error} (h : Moment.ofText text = .error error) :
    error.category = .structural := by
  unfold Moment.ofText at h
  split at h
  · cases h
  · cases h
    rfl

/-- What is wrong with a node is its kind, its pattern or its date. -/
theorem category_of_fault? {node : Node} {error : Error} (h : node.fault? = some error) :
    error.category = .unsupported ∨ error.category = .inexpressible ∨
      error.category = .structural := by
  unfold fault? at h
  split at h
  · cases h
    exact .inl rfl
  split at h
  · cases h
  · unfold patternFault? at h
    split at h
    · split at h
      · exact .inr (.inl (category_of_patternText (errorOf_eq_some.mp h)))
      · cases h
    · cases h
  · exact .inr (.inr (category_of_ofText (errorOf_eq_some.mp h)))
  · cases h

/-- A tree that is not rendered is too deep, or something is wrong with one of its nodes. -/
theorem category_of_render {renderer : Renderer} {tree : Node} {error : Error}
    (h : renderer.render tree = .error error) :
    error.category = .tooDeep ∨ error.category = .unsupported ∨ error.category = .inexpressible ∨
      error.category = .structural := by
  rw [← errorOf_eq_some, errorOf_render] at h
  obtain ⟨visit, _, hvisit⟩ := List.exists_of_findSome?_eq_some h
  unfold faultWithin at hvisit
  split at hvisit
  · cases hvisit
    exact .inl rfl
  · exact .inr (category_of_fault? hvisit)

/-! ### Two targets -/

/-- Two runs that both come to a value, or that fail with the same error. -/
def Alike {α β : Type} (run : Except Error α) (run' : Except Error β) : Prop :=
  (∃ value value', run = .ok value ∧ run' = .ok value') ∨
    ∃ error, run = .error error ∧ run' = .error error

theorem alike_iff {α β : Type} {run : Except Error α} {run' : Except Error β} :
    Alike run run' ↔ errorOf run = errorOf run' := by
  cases run <;> cases run' <;> simp [Alike, errorOf, eq_comm]

/-- **Whatever the dialects and the renames are, two renderers of one limit refuse the same trees with
the same errors, and two conversions of one limit the same statements.** -/
theorem render_alike (maxDepth : Nat) (dialect dialect' : Dialect) (renames renames' : Dictionary) :
    (∀ tree, Alike ((Renderer.mk dialect renames maxDepth).render tree)
      ((Renderer.mk dialect' renames' maxDepth).render tree)) ∧
    ∀ source, Alike (convert ⟨dialect, maxDepth, renames⟩ source)
      (convert ⟨dialect', maxDepth, renames'⟩ source) := by
  refine ⟨fun tree => ?_, fun source => ?_⟩
  · rw [alike_iff, errorOf_render, errorOf_render]
  · rw [convert, convert]
    cases parse source maxDepth with
    | error error => exact .inr ⟨error, rfl, rfl⟩
    | ok tree =>
      refine alike_iff.mpr ?_
      change errorOf ((ofConfig _).render tree) = errorOf ((ofConfig _).render tree)
      rw [errorOf_render, errorOf_render, maxDepth_ofConfig, maxDepth_ofConfig]

end JetSql
