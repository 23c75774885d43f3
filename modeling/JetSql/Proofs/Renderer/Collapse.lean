/-
What a collapsed comparison drops.

A comparison with a conditional on its left is rendered as the conditional, and its operator and its
right operand are dropped. `Node.Redropped` relates two trees that differ only there: anywhere in the
one, and at any number of places, something else is dropped in the other.

* **`nodeText_redropped`:** if the nodes below are rendered alike, so are the two nodes. What stands
  above a comparison looks at the kinds of its operands (a chain of `&`, a sign, arithmetic, another
  comparison), and dropping something else changes no kind.
* **`render_redropped`:** whatever is dropped has no part in the result, be it a text or an error.
-/

import JetSql.Proofs.Renderer.Portable

namespace JetSql

namespace Node

/-! ### Dropping something else -/

/-- A tree, and the same tree but for what its collapsed comparisons drop. -/
inductive Redropped : Node → Node → Prop where
  | same (node : Node) : Redropped node node
  /-- The operator and the right operand give way to any others. -/
  | dropped {condition thenValue elseValue condition' thenValue' elseValue' : Node}
      (op right op' right' : Node) : Redropped condition condition' →
      Redropped thenValue thenValue' → Redropped elseValue elseValue' →
      Redropped (.comparison (.conditional condition thenValue elseValue) op right)
        (.comparison (.conditional condition' thenValue' elseValue') op' right')
  | query {distinct : Bool} {top : Option Nat} {items tables groups orders items' tables' groups'
      orders' : List Node} {condition having condition' having' : Option Node} :
      List.Forall₂ Redropped items items' → List.Forall₂ Redropped tables tables' →
      Option.Rel Redropped condition condition' → List.Forall₂ Redropped groups groups' →
      Option.Rel Redropped having having' → List.Forall₂ Redropped orders orders' →
      Redropped (.query ⟨distinct, top, items, tables, condition, groups, having, orders⟩)
        (.query ⟨distinct, top, items', tables', condition', groups', having', orders'⟩)
  | selectItem {expr expr' : Node} {asName : Option Part} :
      Redropped expr expr' → Redropped (.selectItem expr asName) (.selectItem expr' asName)
  | tableRef {table table' : Node} {asName : Option Part} :
      Redropped table table' → Redropped (.tableRef table asName) (.tableRef table' asName)
  | join {left right on left' right' on' : Node} {kind : JoinKind} :
      Redropped left left' → Redropped right right' → Redropped on on' →
      Redropped (.join left kind right on) (.join left' kind right' on')
  | orderItem {expr expr' : Node} {order : Option SortOrder} :
      Redropped expr expr' → Redropped (.orderItem expr order) (.orderItem expr' order)
  | logical {left right left' right' : Node} {op : LogicOp} :
      Redropped left left' → Redropped right right' →
      Redropped (.logical left op right) (.logical left' op right')
  | not {expr expr' : Node} : Redropped expr expr' → Redropped (.not expr) (.not expr')
  | comparison {left op right left' op' right' : Node} :
      Redropped left left' → Redropped op op' → Redropped right right' →
      Redropped (.comparison left op right) (.comparison left' op' right')
  | isNull {expr expr' : Node} {negated : Bool} :
      Redropped expr expr' → Redropped (.isNull expr negated) (.isNull expr' negated)
  | inList {expr expr' : Node} {list list' : List Node} {negated : Bool} :
      Redropped expr expr' → List.Forall₂ Redropped list list' →
      Redropped (.inList expr list negated) (.inList expr' list' negated)
  | between {expr low high expr' low' high' : Node} {negated : Bool} :
      Redropped expr expr' → Redropped low low' → Redropped high high' →
      Redropped (.between expr low high negated) (.between expr' low' high' negated)
  | arithmetic {left right left' right' : Node} {op : ArithOp} :
      Redropped left left' → Redropped right right' →
      Redropped (.arithmetic left op right) (.arithmetic left' op right')
  | negate {expr expr' : Node} : Redropped expr expr' → Redropped (.negate expr) (.negate expr')
  | conditional {condition thenValue elseValue condition' thenValue' elseValue' : Node} :
      Redropped condition condition' → Redropped thenValue thenValue' →
      Redropped elseValue elseValue' →
      Redropped (.conditional condition thenValue elseValue)
        (.conditional condition' thenValue' elseValue')
  | call {callee : String} {args args' : List Node} :
      List.Forall₂ Redropped args args' → Redropped (.call callee args) (.call callee args')
  | grouped {expr expr' : Node} : Redropped expr expr' → Redropped (.grouped expr) (.grouped expr')
  | crosstab {value select pivot value' select' pivot' : Node} :
      Redropped value value' → Redropped select select' → Redropped pivot pivot' →
      Redropped (.crosstab value select pivot) (.crosstab value' select' pivot')

/-- A conditional stays one, and nothing else becomes one. -/
theorem Redropped.ne_conditional {left left' : Node} (h : Redropped left left')
    (hleft : ∀ condition thenValue elseValue, left ≠ .conditional condition thenValue elseValue) :
    ∀ condition thenValue elseValue, left' ≠ .conditional condition thenValue elseValue := by
  intro condition thenValue elseValue heq
  subst heq
  cases h with
  | same => exact hleft _ _ _ rfl
  | conditional => exact hleft _ _ _ rfl

end Node

namespace Renderer

open Node

/-! ### What a node looks at in those below it -/

/-- The operands of a chain of `&` are those of the same chain. -/
theorem concatOperands_redropped {node node' : Node} (h : Redropped node node') :
    List.Forall₂ Redropped (concatOperands node) (concatOperands node') := by
  induction node using concatOperands.induct generalizing node' with
  | case1 left right ih =>
    rw [concatOperands]
    cases h with
    | same =>
      rw [concatOperands]
      exact List.rel_append (ih (.same left)) (.cons (.same right) .nil)
    | arithmetic hleft hright =>
      rw [concatOperands]
      exact List.rel_append (ih hleft) (.cons hright .nil)
  | case2 node hchain =>
    rw [concatOperands.eq_2 node hchain]
    have hend : concatOperands node' = [node'] := by
      cases h with
      | same => exact concatOperands.eq_2 node hchain
      | @arithmetic _ _ _ _ op =>
        cases op with
        | concat => exact absurd rfl (hchain _ _)
        | _ => rfl
      | _ => rfl
    rw [hend]
    exact .cons h .nil

theorem operandText_redropped {operand operand' : Node} (h : Redropped operand operand')
    (parent : ArithOp) (onLeft : Bool) (text : String) :
    operandText parent onLeft operand text = operandText parent onLeft operand' text := by
  cases h <;> rfl

theorem negateText_redropped {operand operand' : Node} (h : Redropped operand operand')
    (text : String) : negateText operand text = negateText operand' text := by
  cases h <;> rfl

/-- A pattern stays as it is, and no other operand becomes one. -/
theorem redropped_of_isPattern {op right op' right' : Node} (hop : Redropped op op')
    (hright : Redropped right right') :
    op = op' ∧ right = right' ∨ isPattern op right = false ∧ isPattern op' right' = false := by
  cases hop with
  | same op =>
    cases hright with
    | same right => exact .inl ⟨rfl, rfl⟩
    | _ =>
      right
      constructor <;> cases op <;> rfl
  | _ => exact .inr ⟨rfl, rfl⟩

/-! ### Templates -/

section Templates

variable {visit : Node → Except Error String}
  (hvisit : ∀ {node node'}, Redropped node node' → visit node = visit node')

include hvisit

theorem mapM_redropped {nodes nodes' : List Node} (h : List.Forall₂ Redropped nodes nodes') :
    nodes.mapM visit = nodes'.mapM visit := by
  induction h with
  | nil => rfl
  | cons hnode _ ih => rw [List.mapM_cons, List.mapM_cons, hvisit hnode, ih]

theorem listText_redropped {nodes nodes' : List Node} (h : List.Forall₂ Redropped nodes nodes') :
    listText visit nodes = listText visit nodes' := by
  rw [listText, listText, mapM_redropped hvisit h]

theorem clauseText_redropped (keyword : String) {clause clause' : Option Node}
    (h : Option.Rel Redropped clause clause') :
    clauseText visit keyword clause = clauseText visit keyword clause' := by
  cases h with
  | some hnode => rw [clauseText, clauseText, hvisit hnode]
  | none => rfl

theorem clauseListText_redropped (keyword : String) {nodes nodes' : List Node}
    (h : List.Forall₂ Redropped nodes nodes') :
    clauseListText visit keyword nodes = clauseListText visit keyword nodes' := by
  have hempty : nodes.isEmpty = nodes'.isEmpty := by
    cases h <;> rfl
  rw [clauseListText, clauseListText, hempty, listText_redropped hvisit h]

theorem conditionalText_redropped {condition thenValue elseValue condition' thenValue' elseValue' : Node}
    (hcondition : Redropped condition condition') (hthen : Redropped thenValue thenValue')
    (helse : Redropped elseValue elseValue') :
    conditionalText visit condition thenValue elseValue =
      conditionalText visit condition' thenValue' elseValue' := by
  rw [conditionalText, conditionalText, hvisit hcondition, hvisit hthen, hvisit helse]

theorem rightText_redropped {op right op' right' : Node} (hop : Redropped op op')
    (hright : Redropped right right') : rightText visit op right = rightText visit op' right' := by
  rcases redropped_of_isPattern hop hright with ⟨rfl, rfl⟩ | ⟨hplain, hplain'⟩
  · rfl
  · rw [rightText_eq_visit hplain, rightText_eq_visit hplain', hvisit hright]

theorem comparisonText_redropped {left op right left' op' right' : Node}
    (hleft : Redropped left left') (hop : Redropped op op') (hright : Redropped right right') :
    comparisonText visit left op right = comparisonText visit left' op' right' := by
  by_cases hcollapses : ∃ condition thenValue elseValue, left = conditional condition thenValue elseValue
  · obtain ⟨condition, thenValue, elseValue, rfl⟩ := hcollapses
    cases hleft with
    | same => rfl
    | conditional hcondition hthen helse =>
      exact conditionalText_redropped hvisit hcondition hthen helse
  · push Not at hcollapses
    rw [comparisonText_eq op right hcollapses, comparisonText_eq op' right' (hleft.ne_conditional hcollapses),
      rightText_redropped hvisit hop hright, hvisit hleft, hvisit hop]

/-- **Two nodes are rendered alike if those below them are.** -/
theorem nodeText_redropped (renderer : Renderer) {node node' : Node} (h : Redropped node node') :
    renderer.nodeText visit node = renderer.nodeText visit node' := by
  cases h with
  | same => rfl
  | dropped _ _ _ _ hcondition hthen helse =>
    exact conditionalText_redropped hvisit hcondition hthen helse
  | query hitems htables hcondition hgroups hhaving horders =>
    simp only [nodeText, selectText]
    rw [listText_redropped hvisit hitems, clauseListText_redropped hvisit _ htables,
      clauseText_redropped hvisit _ hcondition, clauseListText_redropped hvisit _ hgroups,
      clauseText_redropped hvisit _ hhaving, clauseListText_redropped hvisit _ horders]
  | selectItem hexpr | tableRef hexpr | not hexpr | isNull hexpr | grouped hexpr =>
    simp only [nodeText, hvisit hexpr]
  | @orderItem _ _ order hexpr => cases order <;> simp only [nodeText, hvisit hexpr]
  | join hfirst hsecond hthird | between hfirst hsecond hthird =>
    simp only [nodeText, hvisit hfirst, hvisit hsecond, hvisit hthird]
  | logical hleft hright => simp only [nodeText, hvisit hleft, hvisit hright]
  | comparison hleft hop hright => exact comparisonText_redropped hvisit hleft hop hright
  | inList hexpr hlist => simp only [nodeText, hvisit hexpr, listText_redropped hvisit hlist]
  | @arithmetic left right left' right' op hleft hright =>
    cases op with
    | concat =>
      have hchain : List.Forall₂ Redropped (concatOperands (.arithmetic left .concat right))
          (concatOperands (.arithmetic left' .concat right')) :=
        concatOperands_redropped (.arithmetic hleft hright)
      simp only [nodeText, mapM_redropped hvisit hchain]
    | _ =>
      simp only [nodeText, hvisit hleft, hvisit hright, operandText_redropped hleft,
        operandText_redropped hright]
  | negate hexpr => simp only [nodeText, hvisit hexpr, negateText_redropped hexpr]
  | conditional hcondition hthen helse =>
    exact conditionalText_redropped hvisit hcondition hthen helse
  | call hargs => simp only [nodeText, listText_redropped hvisit hargs]
  | crosstab => rfl

end Templates

/-! ### Trees -/

theorem renderAt_redropped (renderer : Renderer) (levels : Nat) {node node' : Node}
    (h : Redropped node node') : renderer.renderAt levels node = renderer.renderAt levels node' := by
  induction levels generalizing node node' with
  | zero => rfl
  | succ levels ih => exact nodeText_redropped ih renderer h

/-- **Whatever a collapsed comparison drops has no part in the result,** anywhere in a tree and at any
number of places. And a tree that is such a comparison is rendered as its conditional is. -/
theorem render_redropped (renderer : Renderer) :
    (∀ {tree tree' : Node}, Redropped tree tree' → renderer.render tree' = renderer.render tree) ∧
      ∀ condition thenValue elseValue op right : Node,
        renderer.render (.comparison (.conditional condition thenValue elseValue) op right) =
          renderer.render (.conditional condition thenValue elseValue) := by
  constructor
  · intro tree tree' h
    exact (renderer.renderAt_redropped renderer.maxDepth h).symm
  · intro condition thenValue elseValue op right
    unfold render
    cases renderer.maxDepth with
    | zero => rfl
    | succ levels => rfl

/-- `-(IIF(a, 1, 2) = 3) * 4`, with an operator and a right operand to choose. -/
def signed (op right : Node) : Node :=
  .arithmetic (.negate (.comparison (.conditional (name "a") (number "1") (number "2")) op right)) .mul
    (number "4")

/-- A crosstab for an operator and a date that is none, where the limit leaves no level for either. -/
theorem render_redropped_signed :
    Redropped (signed (.operator .eq) (number "3"))
        (signed (.crosstab .star .star .star) (.literal (.date "never"))) ∧
      (Renderer.mk .postgres .empty 4).render (signed (.operator .eq) (number "3")) =
        .ok "-(CASE WHEN a THEN 1 ELSE 2 END) * 4" ∧
      (Renderer.mk .postgres .empty 4).render
          (signed (.crosstab .star .star .star) (.literal (.date "never"))) =
        .ok "-(CASE WHEN a THEN 1 ELSE 2 END) * 4" := by
  have hredropped : Redropped (signed (.operator .eq) (number "3"))
      (signed (.crosstab .star .star .star) (.literal (.date "never"))) :=
    .arithmetic (.negate (.dropped _ _ _ _ (.same _) (.same _) (.same _))) (.same _)
  have hrender : (Renderer.mk .postgres .empty 4).render (signed (.operator .eq) (number "3")) =
      .ok "-(CASE WHEN a THEN 1 ELSE 2 END) * 4" := by rfl
  exact ⟨hredropped, hrender, ((render_redropped _).1 hredropped).trans hrender⟩

end Renderer

end JetSql
