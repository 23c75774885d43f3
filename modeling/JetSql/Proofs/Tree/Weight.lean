/-
Measures of a tree.

`Node.height` counts the nodes on the longest path down. The other measures are weights: `weigh own`
adds up what the nodes of a path weigh, where a node weighs on what stands after its operator but
not on its left operand, which was read before the operator.

* `levels` is the weight in levels of the budget. An operator weighs as much as its place in its
  chain, counted from the innermost operand.
* `deepestLevel` counts levels from the level that a node stands at, down to the deepest one; it is
  that level and the weight in levels (`deepestLevel_eq`).
* `parens` is the weight in pairs of parentheses.
* **`weigh_mono`:** parentheses weigh no more than levels.
-/

import JetSql.Tree.Basic

namespace JetSql

/-- The greatest of some numbers. -/
def greatest (numbers : List Nat) : Nat :=
  numbers.foldr max 0

@[simp] theorem greatest_nil : greatest [] = 0 := rfl

@[simp] theorem greatest_cons (n : Nat) (numbers : List Nat) :
    greatest (n :: numbers) = max n (greatest numbers) := rfl

theorem greatest_le_iff {numbers : List Nat} {b : Nat} :
    greatest numbers ≤ b ↔ ∀ n ∈ numbers, n ≤ b := by
  induction numbers with
  | nil => simp
  | cons n numbers ih => rw [greatest_cons, Nat.max_le, ih, List.forall_mem_cons]

theorem greatest_append (xs ys : List Nat) :
    greatest (xs ++ ys) = max (greatest xs) (greatest ys) := by
  induction xs with
  | nil => simp
  | cons x xs ih => simp [ih, Nat.max_assoc]

theorem greatest_map_add {α : Type} (n : Nat) (f : α → Nat) {xs : List α} (h : xs ≠ []) :
    greatest (xs.map fun x => n + f x) = n + greatest (xs.map f) := by
  induction xs with
  | nil => exact absurd rfl h
  | cons x xs ih =>
    cases xs with
    | nil => simp
    | cons y ys =>
      rw [List.map_cons, greatest_cons, ih (List.cons_ne_nil y ys), List.map_cons (l := y :: ys),
        greatest_cons]
      omega

/-- What is added to every number is added to the greatest of them, and to a number beside them. -/
theorem max_greatest_map_add {α : Type} (n a : Nat) (f : α → Nat) (xs : List α) :
    max (n + a) (greatest (xs.map fun x => n + f x)) = n + max a (greatest (xs.map f)) := by
  by_cases h : xs = []
  · simp [h]
  · rw [greatest_map_add n f h, Nat.add_max_add_left]

namespace Node

/-! ### Height -/

/-- The number of nodes on the longest path from a node to a leaf. -/
def height (node : Node) : Nat :=
  greatest (node.children.attach.map fun ⟨child, _⟩ => height child) + 1
termination_by node
decreasing_by exact sizeOf_lt_of_mem_children (by assumption)

theorem height_eq (node : Node) : node.height = greatest (node.children.map height) + 1 := by
  rw [height]
  simp [List.map_subtype]

theorem height_le_iff {node : Node} {h : Nat} :
    node.height ≤ h + 1 ↔ ∀ child ∈ node.children, child.height ≤ h := by
  rw [height_eq, Nat.add_le_add_iff_right, greatest_le_iff]
  simp

/-! ### Chains -/

/-- The number of links in the chain at whose end a node stands: operators after operands, and
joins. -/
def links : Node → Nat
  | logical left _ _ | comparison left _ _ | arithmetic left _ _ | isNull left _ | inList left _ _
  | between left _ _ _ | join left _ _ _ => links left + 1
  | _ => 0

/-- What a node holds that was read before its own operator. -/
def before : Node → List Node
  | logical left _ _ | comparison left _ _ | arithmetic left _ _ | isNull left _ | inList left _ _
  | between left _ _ _ | join left _ _ _ => [left]
  | _ => []

/-- The other children of a node. -/
def inside : Node → List Node
  | logical _ _ right | arithmetic _ _ right => [right]
  | comparison _ op right => [op, right]
  | isNull .. => []
  | inList _ list _ => list
  | between _ low high _ => [low, high]
  | join _ _ right on => [right, on]
  | node => node.children

theorem children_eq (node : Node) : node.children = node.before ++ node.inside := by
  cases node <;> rfl

/-! ### Weights -/

section Weight

variable {own : Node → Nat} {node : Node} {b : Nat}

/-- The greatest weight of a path down from a node. -/
def weigh (own : Node → Nat) (node : Node) : Nat :=
  max (own node)
    (max (greatest (node.before.attach.map fun child => weigh own child.1))
      (greatest (node.inside.attach.map fun child => own node + weigh own child.1)))
termination_by node
decreasing_by
  · exact sizeOf_lt_of_mem_children (by rw [children_eq]; exact List.mem_append_left _ child.2)
  · exact sizeOf_lt_of_mem_children (by rw [children_eq]; exact List.mem_append_right _ child.2)

theorem weigh_eq (own : Node → Nat) (node : Node) :
    node.weigh own =
      max (own node)
        (max (greatest (node.before.map (weigh own)))
          (greatest (node.inside.map fun child => own node + child.weigh own))) := by
  rw [weigh, List.attach_map_val (f := weigh own),
    List.attach_map_val (f := fun child => own node + weigh own child)]

/-- What a node holds weighs as much as the heaviest of it, together with the node itself. -/
theorem weigh_eq_add (own : Node → Nat) (node : Node) :
    node.weigh own =
      max (greatest (node.before.map (weigh own)))
        (own node + greatest (node.inside.map (weigh own))) := by
  rw [weigh_eq]
  by_cases hinside : node.inside = []
  · simp [hinside, Nat.max_comm]
  · rw [greatest_map_add _ _ hinside]
    omega

theorem weigh_le_iff :
    node.weigh own ≤ b ↔
      own node ≤ b ∧ (∀ child ∈ node.before, child.weigh own ≤ b) ∧
        ∀ child ∈ node.inside, own node + child.weigh own ≤ b := by
  rw [weigh_eq, Nat.max_le, Nat.max_le, greatest_le_iff, greatest_le_iff, List.forall_mem_map,
    List.forall_mem_map]

theorem own_le_weigh : own node ≤ node.weigh own :=
  (weigh_le_iff.mp (Nat.le_refl _)).1

/-- Where every node weighs less, so does the tree. -/
theorem weigh_mono {own' : Node → Nat} (h : ∀ node, own node ≤ own' node) (node : Node) :
    node.weigh own ≤ node.weigh own' := by
  induction node using inductionOnChildren with
  | step node ih =>
    rw [children_eq] at ih
    obtain ⟨hown, hbefore, hinside⟩ := weigh_le_iff.mp (Nat.le_refl (node.weigh own'))
    refine weigh_le_iff.mpr ⟨Nat.le_trans (h node) hown, fun child hchild => ?_, fun child hchild => ?_⟩
    · exact Nat.le_trans (ih child (List.mem_append_left _ hchild)) (hbefore child hchild)
    · have := ih child (List.mem_append_right _ hchild)
      have := hinside child hchild
      have := h node
      omega

end Weight

/-- The levels that a node spends by itself: a link as many as its place in the chain, and one for
whatever else leads down. -/
def spends : Node → Nat
  | node@(logical ..) | node@(comparison ..) | node@(arithmetic ..) | node@(isNull ..)
  | node@(inList ..) | node@(between ..) | node@(join ..) => node.links
  | not _ | negate _ | grouped _ | call .. | conditional .. | crosstab .. => 1
  | _ => 0

/-- The levels of the budget that the tree needs below the one it stands at. -/
def levels : Node → Nat :=
  weigh spends

/-- The greatest level in a tree whose root stands at a level. What a node spends puts it, and what
stands after its operator, that much deeper; what was read before its operator keeps the level. -/
def deepestLevel (level : Nat) (node : Node) : Nat :=
  max (level + node.spends)
    (max (greatest (node.before.attach.map fun child => deepestLevel level child.1))
      (greatest (node.inside.attach.map fun child => deepestLevel (level + node.spends) child.1)))
termination_by node
decreasing_by
  · exact sizeOf_lt_of_mem_children (by rw [children_eq]; exact List.mem_append_left _ child.2)
  · exact sizeOf_lt_of_mem_children (by rw [children_eq]; exact List.mem_append_right _ child.2)

theorem deepestLevel_eq_max (level : Nat) (node : Node) :
    node.deepestLevel level =
      max (level + node.spends)
        (max (greatest (node.before.map (deepestLevel level)))
          (greatest (node.inside.map (deepestLevel (level + node.spends))))) := by
  rw [deepestLevel, List.attach_map_val (f := deepestLevel level),
    List.attach_map_val (f := deepestLevel (level + node.spends))]

/-- A tree goes as far below the level of its root as it needs levels of the budget. -/
theorem deepestLevel_eq (level : Nat) (node : Node) :
    node.deepestLevel level = level + node.levels := by
  induction node using inductionOnChildren generalizing level with
  | step node ih =>
    rw [children_eq] at ih
    have hbefore : node.before.map (deepestLevel level) =
        node.before.map fun child => level + child.levels :=
      List.map_congr_left fun child hchild => ih child (List.mem_append_left _ hchild) level
    have hinside : node.inside.map (deepestLevel (level + node.spends)) =
        node.inside.map fun child => level + (node.spends + child.levels) :=
      List.map_congr_left fun child hchild => by
        rw [ih child (List.mem_append_right _ hchild), Nat.add_assoc]
    rw [deepestLevel_eq_max, hbefore, hinside, ← Nat.max_assoc, max_greatest_map_add,
      max_greatest_map_add, Nat.max_assoc, levels, weigh_eq]

/-- One for a node that stands in parentheses what it holds. -/
def encloses : Node → Nat
  | grouped _ | call .. | conditional .. | inList .. => 1
  | _ => 0

/-- The deepest nesting of parentheses in a tree. -/
def parens : Node → Nat :=
  weigh encloses

theorem parens_eq (node : Node) :
    node.parens =
      max (greatest (node.before.map parens)) (node.encloses + greatest (node.inside.map parens)) :=
  weigh_eq_add encloses node

theorem encloses_le_spends (node : Node) : node.encloses ≤ node.spends := by
  cases node <;> simp [encloses, spends, links]

/-- Parentheses weigh no more than levels. -/
theorem parens_le_levels (node : Node) : node.parens ≤ node.levels :=
  weigh_mono encloses_le_spends node

theorem levels_le_iff {node : Node} {b : Nat} :
    node.levels ≤ b ↔
      node.spends ≤ b ∧ (∀ child ∈ node.before, child.levels ≤ b) ∧
        ∀ child ∈ node.inside, node.spends + child.levels ≤ b :=
  weigh_le_iff

theorem spends_le_levels (node : Node) : node.spends ≤ node.levels :=
  own_le_weigh

end Node

end JetSql
