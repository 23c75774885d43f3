/-
What holds of every node of a tree.

* **`everywhere_iff`:** it holds of the node itself and everywhere below each child.
-/

import JetSql.Tree.Basic

namespace JetSql.Node

variable {p : Node → Prop} {node child : Node}

/-- A property of nodes holds of each node of a tree. -/
def Everywhere (p : Node → Prop) (node : Node) : Prop :=
  ∀ entry ∈ node.walk 0, p entry.2

theorem forall_mem_walk_iff (depth : Nat) :
    (∀ entry ∈ node.walk depth, p entry.2) ↔
      p node ∧ ∀ child ∈ node.children, ∀ entry ∈ child.walk (depth + 1), p entry.2 := by
  rw [walk_eq, List.forall_mem_cons, List.forall_mem_flatMap]

/-- The depth that a walk begins with makes no difference to the nodes that it visits. -/
theorem everywhere_iff_walk (depth : Nat) :
    node.Everywhere p ↔ ∀ entry ∈ node.walk depth, p entry.2 := by
  induction node using inductionOnChildren generalizing depth with
  | step node ih =>
    rw [Everywhere, forall_mem_walk_iff, forall_mem_walk_iff]
    refine and_congr_right fun _ => forall₂_congr fun child hchild => ?_
    rw [← ih child hchild, ← ih child hchild]

theorem everywhere_iff :
    node.Everywhere p ↔ p node ∧ ∀ child ∈ node.children, child.Everywhere p := by
  rw [Everywhere, forall_mem_walk_iff]
  exact and_congr_right fun _ => forall₂_congr fun child _ => (everywhere_iff_walk 1).symm

/-- What holds everywhere in a tree holds everywhere below it. -/
theorem Everywhere.of_mem (h : node.Everywhere p) (hchild : child ∈ node.children) :
    child.Everywhere p :=
  (everywhere_iff.mp h).2 child hchild

end JetSql.Node
