/-
The highest trees that a limit lets through.

Under a limit of `r + 1` a chain of `r` links may begin with a parenthesis, in which a chain of
`r - 1` links begins with a parenthesis, and so on. `tallest r` is that tree. It spends `r` levels,
and its height is the triangular number that bounds the height of every tree read at the limit.

* **`greatest_height_of_parse`:** the bound is met at every limit, so the height outgrows the limit by
  more than the few nodes around an expression from a limit of three on.
-/

import JetSql.Proofs.Grammar.Height
import JetSql.Proofs.ReadBack.Nesting

namespace JetSql

namespace Node

/-- A name of one letter. -/
def letter : Node :=
  identifier [⟨"a", false⟩]

/-- A chain of additions of the letter to a left operand. -/
def added (left : Node) : Nat → Node
  | 0 => left
  | n + 1 => arithmetic (added left n) .add letter

/-- The highest expression of a number of levels. -/
def tallest : Nat → Node
  | 0 => letter
  | r + 1 => added (grouped (tallest r)) (r + 1)

end Node

namespace Grammar

open Node

variable {left expr : Node} {n : Nat}

/-! ### Chains of additions -/

theorem formed_letter : Formed .expr letter := by
  refine .identifier (by simp) (List.forall_mem_singleton.mpr ⟨by decide, ?_⟩)
  rw [isReserved, Text.toUpper_eq "A" (by decide)]
  decide

theorem lt_tail_added (htail : left.tail = 10) (n : Nat) :
    ArithOp.add.precedence < (added left n).tail := by
  cases n with
  | zero => rw [added, htail]; decide
  | succ n => rw [added, tail]; decide

theorem formed_added (h : Formed .expr left) (htail : left.tail = 10) (n : Nat) :
    Formed .expr (added left n) := by
  induction n with
  | zero => exact h
  | succ n ih => exact .arithmetic ih (lt_tail_added htail n) formed_letter (by decide)

theorem links_added (hlinks : left.links = 0) (n : Nat) : (added left n).links = n := by
  induction n with
  | zero => exact hlinks
  | succ n ih => rw [added, links, ih]

theorem levels_added_le {b : Nat} (hlinks : left.links = 0) (hlevels : left.levels ≤ b) (hn : n ≤ b) :
    (added left n).levels ≤ b := by
  induction n with
  | zero => exact hlevels
  | succ n ih =>
    have hspends : (added left (n + 1)).spends = n + 1 := links_added hlinks (n + 1)
    have hletter : letter.levels ≤ 0 := levels_leaf rfl rfl rfl
    refine levels_le_iff.mpr ⟨by omega, ?_, ?_⟩
    · exact List.forall_mem_singleton.mpr (ih (by omega))
    · refine List.forall_mem_singleton.mpr ?_
      omega

theorem height_letter : letter.height = 1 := by
  rw [height_eq]
  rfl

theorem height_added (n : Nat) : (added left n).height = left.height + n := by
  induction n with
  | zero => rfl
  | succ n ih =>
    have hpos : 1 ≤ left.height := by rw [height_eq]; omega
    rw [added, height_eq]
    simp only [children, List.map_cons, List.map_nil, greatest_cons, greatest_nil, ih, height_letter]
    omega

/-! ### Statements -/

theorem height_selecting : (selecting expr).height = expr.height + 2 := by
  rw [selecting, height_eq]
  simp [children, Clauses.nodes, height_eq (Node.selectItem expr none)]

/-! ### The highest expressions -/

theorem formed_tallest (r : Nat) : Formed .expr (tallest r) := by
  induction r with
  | zero => exact formed_letter
  | succ r ih => exact formed_added (.grouped ih) rfl (r + 1)

theorem levels_tallest_le (r : Nat) : (tallest r).levels ≤ r := by
  induction r with
  | zero => exact levels_leaf rfl rfl rfl
  | succ r ih =>
    refine levels_added_le rfl (levels_le_of_children rfl (by simp [spends]) ?_) (Nat.le_refl _)
    exact List.forall_mem_singleton.mpr ih

theorem height_tallest (r : Nat) : (tallest r).height = triangle (r + 1) := by
  induction r with
  | zero => exact height_letter
  | succ r ih =>
    rw [tallest, height_added, height_eq, triangle_succ (r + 1)]
    simp only [children, List.map_cons, List.map_nil, greatest_cons, greatest_nil, ih]
    omega

/-- The greatest height outgrows the limit from a limit of three on. -/
theorem triangle_le_iff (limit : Nat) : triangle limit + 2 ≤ limit + 4 ↔ limit ≤ 2 := by
  constructor
  · intro h
    by_cases hlimit : limit ≤ 2
    · exact hlimit
    · have hmono : triangle 2 ≤ triangle (limit - 1) := triangle_mono (by omega)
      have hsucc := triangle_succ (limit - 1)
      rw [show limit - 1 + 1 = limit by omega] at hsucc
      have htwo : triangle 2 = 3 := rfl
      omega
  · intro h
    have hmono : triangle limit ≤ limit + 2 := by
      match limit, h with
      | 0, _ | 1, _ | 2, _ => decide
    omega

end Grammar

open Grammar Node

/-- **The greatest height of a tree that is parsed at a limit is the triangular number of the limit,
and two more. So it exceeds the limit by no more than four only where the limit is at most two.** -/
theorem greatest_height_of_parse {limit : Nat} (hlimit : 1 ≤ limit) :
    (∀ source node, parse source limit = .ok node → node.height ≤ triangle limit + 2) ∧
      (∃ source node, parse source limit = .ok node ∧ node.height = triangle limit + 2) ∧
      ((∀ source node, parse source limit = .ok node → node.height ≤ limit + 4) ↔ limit ≤ 2) := by
  have hbound (source : String) (node : Node) (h : parse source limit = .ok node) :
      node.height ≤ triangle limit + 2 :=
    height_le_of_read hlimit (read_of_parse h)
  have hheight : (selecting (tallest (limit - 1))).height = triangle limit + 2 := by
    rw [height_selecting, height_tallest, Nat.sub_add_cancel hlimit]
  have hparse := parse_selecting (formed_tallest (limit - 1)) (levels_tallest_le (limit - 1))
  refine ⟨hbound, ⟨_, _, hparse, hheight⟩, ?_⟩
  rw [← triangle_le_iff]
  constructor
  · intro h
    exact hheight ▸ h _ _ hparse
  · intro h source node hnode
    exact Nat.le_trans (hbound source node hnode) h

theorem greatest_height_of_parse_four : 1 ≤ 4 ∧
    (∀ source node, parse source 4 = .ok node → node.height ≤ triangle 4 + 2) ∧
      (∃ source node, parse source 4 = .ok node ∧ node.height = triangle 4 + 2) ∧
      ((∀ source node, parse source 4 = .ok node → node.height ≤ 4 + 4) ↔ 4 ≤ 2) :=
  ⟨by decide, greatest_height_of_parse (by decide)⟩

/-- Three additions to a sum in parentheses are parsed at a limit of four, and nine nodes high. -/
theorem height_of_parse_exceeds_limit :
    ∃ node, parse "SELECT (a + a + a) + a + a + a" 4 = .ok node ∧ 4 + 4 < node.height := by
  have hsum : Formed .expr (added (grouped (added letter 2)) 3) :=
    formed_added (.grouped (formed_added formed_letter rfl 2)) rfl 3
  have hlevels : (added (grouped (added letter 2)) 3).levels ≤ 4 - 1 :=
    levels_added_le rfl (levels_le_of_children rfl (by decide) (List.forall_mem_singleton.mpr
      (levels_added_le rfl (levels_leaf rfl rfl rfl) (by decide)))) (by decide)
  have hsource : String.ofList (selecting (added (grouped (added letter 2)) 3)).source =
      "SELECT (a + a + a) + a + a + a" := by
    rw [← String.toList_inj, String.toList_ofList]
    rfl
  refine ⟨_, hsource ▸ parse_selecting hsum hlevels, ?_⟩
  rw [height_selecting, height_added, height_eq]
  simp [children, height_added, height_letter]

end JetSql
