/-
Chains of `&`, taken apart and rendered.

A chain runs down the left operands. `concatOperands` lists what it joins, in the order of the source,
and loses nothing: joining the list from the left gives the chain again, whatever the operands are. An
operand that is a chain itself can only stand on the right of a link, and stays one operand.

A chain is one node for the limit on depth and one joining for the target, however long it is.

* **`concat_chain`:** the operands of a chain, and its text from theirs.
-/

import JetSql.Proofs.Renderer.Limit
import JetSql.Proofs.Renderer.Success

namespace JetSql

namespace Node

/-- Whether a node joins two operands with `&`. -/
def isConcat : Node → Bool
  | arithmetic _ .concat _ => true
  | _ => false

/-- The number of links of the chain of `&` that a node is: those on the way down the left. -/
def concatLinks : Node → Nat
  | arithmetic left .concat _ => concatLinks left + 1
  | _ => 0

/-- Operands joined with `&`, the first two first. -/
def joinAll (first : Node) (others : List Node) : Node :=
  others.foldl (fun joined operand => arithmetic joined .concat operand) first

theorem joinAll_append (first : Node) (others : List Node) (last : Node) :
    joinAll first (others ++ [last]) = arithmetic (joinAll first others) .concat last :=
  List.foldl_append

end Node

namespace Renderer

open Node

variable {text : String}

/-! ### Operands -/

theorem length_concatOperands (node : Node) :
    (concatOperands node).length = node.concatLinks + 1 := by
  induction node using concatOperands.induct with
  | case1 left right ih =>
    rw [concatOperands, List.length_append, ih, concatLinks, List.length_singleton]
  | case2 node hnode =>
    rw [concatOperands.eq_2 node hnode, concatLinks.eq_2 node hnode, List.length_singleton]

/-- The operands of a chain begin with one that is no chain, and make up the chain again. -/
theorem exists_concatOperands (node : Node) :
    ∃ first others, concatOperands node = first :: others ∧ first.isConcat = false ∧
      joinAll first others = node := by
  induction node using concatOperands.induct with
  | case1 left right ih =>
    obtain ⟨first, others, hoperands, hfirst, hjoined⟩ := ih
    refine ⟨first, others ++ [right], ?_, hfirst, ?_⟩
    · rw [concatOperands, hoperands, List.cons_append]
    · rw [joinAll_append, hjoined]
  | case2 node hnode =>
    exact ⟨node, [], concatOperands.eq_2 node hnode, isConcat.eq_2 node hnode, rfl⟩

/-! ### Texts -/

/-- A text does not depend on the limit, only on the levels that are left. -/
theorem renderAt_withMaxDepth (renderer : Renderer) (maxDepth levels : Nat) (node : Node) :
    (renderer.withMaxDepth maxDepth).renderAt levels node = .ok text ↔
      renderer.renderAt levels node = .ok text := by
  have hkeeps {small large : Renderer} (maxDepth : Nat) (hlarge : small.withMaxDepth maxDepth = large)
      (h : small.renderAt levels node = .ok text) : large.renderAt levels node = .ok text := by
    rcases cut_renderAt small maxDepth (Nat.le_refl levels) node with hstop | hsame
    · rw [h] at hstop
      cases hstop
    · rw [← hlarge, ← hsame, h]
  exact ⟨hkeeps renderer.maxDepth rfl, hkeeps maxDepth rfl⟩

/-- All operands of a chain are rendered one level below it, and joined once. -/
theorem render_concat_eq_ok (renderer : Renderer) (left right : Node) :
    renderer.render (.arithmetic left .concat right) = .ok text ↔
      ∃ texts, List.Forall₂
          (fun operand shown =>
            (renderer.withMaxDepth (renderer.maxDepth - 1)).render operand = .ok shown)
          (concatOperands (.arithmetic left .concat right)) texts ∧
        text = renderer.dialect.concat texts := by
  have hbelow (operand : Node) (shown : String) :
      (renderer.withMaxDepth (renderer.maxDepth - 1)).render operand = .ok shown ↔
        renderer.renderAt (renderer.maxDepth - 1) operand = .ok shown :=
    renderAt_withMaxDepth renderer _ _ operand
  rw [render]
  simp only [hbelow, @eq_comm _ text]
  cases renderer.maxDepth with
  | zero =>
    -- Neither side holds: a chain has an operand, and no level is left for it.
    obtain ⟨first, others, hoperands, -, -⟩ :=
      exists_concatOperands (.arithmetic left .concat right)
    simp [hoperands, renderAt, List.forall₂_cons_left_iff]
  | succ levels =>
    simp only [renderAt, nodeText, bind_eq_ok, mapM_eq_ok, pure_eq_ok, Nat.add_sub_cancel]

/-- **A chain of `&` has one operand more than links. The first is no chain, and all of them joined
from the left are the chain again. The chain is rendered exactly if each operand is, with a limit one
lower, and its text joins those texts in their order, all at once.** -/
theorem concat_chain (left right : Node) :
    (concatOperands (.arithmetic left .concat right)).length =
        (Node.arithmetic left .concat right).concatLinks + 1 ∧
      (∃ first others, concatOperands (.arithmetic left .concat right) = first :: others ∧
        first.isConcat = false ∧ joinAll first others = .arithmetic left .concat right) ∧
      ∀ (renderer : Renderer) (text : String),
        renderer.render (.arithmetic left .concat right) = .ok text ↔
          ∃ texts, List.Forall₂
              (fun operand shown =>
                (renderer.withMaxDepth (renderer.maxDepth - 1)).render operand = .ok shown)
              (concatOperands (.arithmetic left .concat right)) texts ∧
            text = renderer.dialect.concat texts :=
  ⟨length_concatOperands _, exists_concatOperands _,
    fun renderer _ => render_concat_eq_ok renderer left right⟩

/-- `a & (b & c) & d`, without parentheses in the tree: the chain on the right stays one operand. -/
example : concatOperands (.arithmetic (.arithmetic (name "a") .concat
      (.arithmetic (name "b") .concat (name "c"))) .concat (name "d")) =
    [name "a", .arithmetic (name "b") .concat (name "c"), name "d"] :=
  rfl

end Renderer

end JetSql
