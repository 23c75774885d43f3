/-
How a target groups its operators.

An expression is met as operands with operators between them. `attach` puts the next operator and
operand at the end of a tree: the operator takes as its left operand whatever at the end of the tree
binds at least as tightly. `Expr.Ordered` is what comes of it: every operator has operands that bind
more tightly, on the left perhaps as tightly.

* **`assemble_of_ordered`:** an ordered tree is the one that is assembled from its operands and
  operators, so there is no other with the same.
-/

import JetSql.Tree.Basic

namespace JetSql.Target

/-- An operator that stands between operands. -/
inductive Operator where
  | add | sub | mul | div | rem | intDiv
  /-- Joins texts. -/
  | join
deriving DecidableEq, Repr

/-- How tightly an operator binds; a greater number is tighter. -/
def Operator.rank : Operator → Nat
  | .join => 3
  | .mul | .div | .rem | .intDiv => 2
  | .add | .sub => 1

/-- The spelling of an operator. -/
def Operator.symbol : Operator → String
  | .add => "+"
  | .sub => "-"
  | .mul => "*"
  | .div => "/"
  | .rem => "%"
  | .intDiv => "DIV"
  | .join => "||"

/-- An expression of a target. What stands in parentheses is kept as text. -/
inductive Expr where
  /-- A name or a number. -/
  | token (text : List Char)
  | group (inside : List Char)
  | call (callee inside : List Char)
  | minus (operand : Expr)
  | binary (left : Expr) (op : Operator) (right : Expr)
deriving DecidableEq, Repr

namespace Expr

/-- How tightly the outermost operator binds; an operand binds more tightly than any operator. -/
def rank : Expr → Nat
  | binary _ op _ => op.rank
  | _ => 4

/-- The first operand. -/
def first : Expr → Expr
  | binary left _ _ => left.first
  | operand => operand

/-- The operators, each with the operand that follows it. -/
def links : Expr → List (Operator × Expr)
  | binary left op right => left.links ++ (op, right.first) :: right.links
  | _ => []

/-- Every operator has operands that bind more tightly, on the left perhaps as tightly. -/
def Ordered : Expr → Prop
  | binary left op right =>
    left.Ordered ∧ right.Ordered ∧ op.rank ≤ left.rank ∧ op.rank < right.rank
  | _ => True

/-- The tree with one more operator and operand at its end. -/
def attach : Expr → Operator → Expr → Expr
  | binary left op right, next, operand =>
    if next.rank ≤ op.rank then binary (binary left op right) next operand
    else binary left op (right.attach next operand)
  | tree, next, operand => binary tree next operand

/-- The tree of a sequence of operands and operators. -/
def assemble (first : Expr) (links : List (Operator × Expr)) : Expr :=
  links.foldl (fun tree link => tree.attach link.1 link.2) first

variable {tree first operand left right : Expr} {op : Operator} {links : List (Operator × Expr)}

/-! ### What is assembled -/

theorem operator_rank_lt (op : Operator) : op.rank < 4 := by
  cases op <;> decide

theorem attach_of_rank_le (h : op.rank ≤ tree.rank) :
    tree.attach op operand = binary tree op operand := by
  cases tree with
  | binary left op' right => exact if_pos h
  | _ => rfl

/-- What binds more tightly than an operator is drawn into its right operand. -/
theorem assemble_binary (h : ∀ link ∈ links, op.rank < link.1.rank) :
    assemble (binary left op first) links = binary left op (assemble first links) := by
  induction links generalizing first with
  | nil => rfl
  | cons link links ih =>
    obtain ⟨hlink, hlinks⟩ := List.forall_mem_cons.mp h
    have hattach : attach (binary left op first) link.1 link.2 =
        binary left op (first.attach link.1 link.2) :=
      if_neg (Nat.not_le.mpr hlink)
    rw [assemble, List.foldl_cons, hattach]
    exact ih hlinks

theorem rank_le_of_mem_links (h : tree.Ordered) : ∀ link ∈ tree.links, tree.rank ≤ link.1.rank := by
  induction tree with
  | binary left op right ihleft ihright =>
    obtain ⟨hleft, hright, hopleft, hopright⟩ := h
    simp only [Expr.links, List.forall_mem_append, List.forall_mem_cons]
    exact ⟨fun link hlink => Nat.le_trans hopleft (ihleft hleft link hlink), Nat.le_refl _,
      fun link hlink => Nat.le_trans (Nat.le_of_lt hopright) (ihright hright link hlink)⟩
  | _ => simp [Expr.links]

/-- **An ordered tree is assembled from its operands and operators.** -/
theorem assemble_of_ordered (h : tree.Ordered) : assemble tree.first tree.links = tree := by
  induction tree with
  | binary left op right ihleft ihright =>
    obtain ⟨hleft, hright, hopleft, hopright⟩ := h
    have hlinks (link) (hlink : link ∈ right.links) : op.rank < link.1.rank :=
      Nat.lt_of_lt_of_le hopright (rank_le_of_mem_links hright link hlink)
    calc assemble left.first (left.links ++ (op, right.first) :: right.links)
        = assemble ((assemble left.first left.links).attach op right.first) right.links := by
          simp [assemble]
      _ = assemble (binary left op right.first) right.links := by
          rw [ihleft hleft, attach_of_rank_le hopleft]
      _ = binary left op right := by rw [assemble_binary hlinks, ihright hright]
  | _ => rfl

/-- An operand is not an operation between operands. -/
def IsOperand (tree : Expr) : Prop :=
  tree.rank = 4

theorem IsOperand.first_eq (h : operand.IsOperand) : operand.first = operand ∧ operand.links = [] := by
  cases operand with
  | binary left op right => exact absurd h (Nat.ne_of_lt (operator_rank_lt op))
  | _ => exact ⟨rfl, rfl⟩

theorem IsOperand.ordered (h : operand.IsOperand) : operand.Ordered := by
  cases operand with
  | binary left op right => exact absurd h (Nat.ne_of_lt (operator_rank_lt op))
  | _ => trivial

end Expr

end JetSql.Target
