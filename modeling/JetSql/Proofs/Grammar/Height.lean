/-
How high a tree of a given number of levels can be.

A level may be spent anew below every link of a chain, and the operand a chain begins with stands
below all of its links. So the height is not bounded by the levels: each level adds a chain as long
as the levels that are left, and the heights add up to a triangular number.

* **`height_le_of_read`:** a tree that is read at a limit is at most `triangle limit + 2` high.
-/

import JetSql.Proofs.Grammar.Form
import JetSql.Proofs.Grammar.Levels

namespace JetSql

/-- The sum of the numbers up to a number. -/
def triangle (n : Nat) : Nat :=
  n * (n + 1) / 2

theorem triangle_succ (n : Nat) : triangle (n + 1) = triangle n + (n + 1) := by
  have h : (n + 1) * (n + 1 + 1) = n * (n + 1) + 2 * (n + 1) := by
    rw [Nat.mul_comm, ← Nat.add_mul]
  rw [triangle, triangle, h, Nat.add_mul_div_left _ _ (by decide)]

theorem triangle_mono {m n : Nat} (h : m ≤ n) : triangle m ≤ triangle n :=
  Nat.div_le_div_right (Nat.mul_le_mul h (Nat.succ_le_succ h))

namespace Grammar

open Node

variable {node left : Node} {b c : Nat}

theorem links_le_levels (node : Node) : node.links ≤ node.levels := by
  refine Nat.le_trans ?_ (spends_le_levels node)
  cases node <;> simp [spends, links]

/-- A node has room under a budget: it is `extra` higher than a tree of that budget at most. -/
def Roomy (extra : Nat) (node : Node) : Prop :=
  ∀ b, node.levels ≤ b → node.height ≤ node.links + 1 + triangle b + extra

variable {extra : Nat}

/-- As many links as there are levels make a tree as high as if there were one level more. -/
theorem Roomy.height_le (h : Roomy extra node) (hlevels : node.levels ≤ b) :
    node.height ≤ triangle (b + 1) + extra := by
  have := h b hlevels
  have := links_le_levels node
  rw [triangle_succ]
  omega

theorem Roomy.succ (h : Roomy extra node) : Roomy (extra + 1) node :=
  fun b hlevels => Nat.le_succ_of_le (h b hlevels)

/-- A link has room if its operands do. -/
theorem roomy_link (hbefore : node.before = [left]) (hspends : node.spends = left.links + 1)
    (hlinks : node.links = left.links + 1) (hleft : Roomy extra left)
    (hinside : ∀ child ∈ node.inside, Roomy extra child) : Roomy extra node := by
  intro b hlevels
  obtain ⟨hown, hbeforelevels, hinsidelevels⟩ := levels_le_iff.mp hlevels
  rw [hbefore, List.forall_mem_singleton] at hbeforelevels
  rw [show node.links + 1 + triangle b + extra = left.links + 1 + triangle b + extra + 1 by omega,
    height_le_iff, children_eq, hbefore]
  refine List.forall_mem_cons.mpr ⟨hleft b hbeforelevels, fun child hchild => ?_⟩
  have hheight := (hinside child hchild).height_le (b := b - node.spends)
    (by have := hinsidelevels child hchild; omega)
  have := triangle_mono (show b - node.spends + 1 ≤ b by omega)
  omega

/-- A node that leads one level down has room if what it holds has. -/
theorem roomy_down (hbefore : node.before = []) (hspends : node.spends = 1)
    (hlinks : node.links = 0) (hinside : ∀ child ∈ node.inside, Roomy extra child) :
    Roomy extra node := by
  intro b hlevels
  obtain ⟨hown, -, hinsidelevels⟩ := levels_le_iff.mp hlevels
  rw [show node.links + 1 + triangle b + extra = triangle b + extra + 1 by omega,
    height_le_iff, children_eq, hbefore]
  intro child hchild
  have hheight := (hinside child hchild).height_le (b := b - 1)
    (by have := hinsidelevels child hchild; omega)
  rwa [show b - 1 + 1 = b by omega] at hheight

/-- A leaf has room. -/
theorem roomy_leaf (extra : Nat) (hchildren : node.children = []) : Roomy extra node := by
  intro b _
  have : node.height = 1 := by simp [height_eq, hchildren]
  omega

/-- A node around others on the same level is one higher than they are. -/
theorem height_le_of_inside (hbefore : node.before = []) (hspends : node.spends = 0)
    (hlevels : node.levels ≤ b)
    (hinside : ∀ child ∈ node.inside, child.levels ≤ b → child.height ≤ c) :
    node.height ≤ c + 1 := by
  obtain ⟨-, -, hinsidelevels⟩ := levels_le_iff.mp hlevels
  rw [height_le_iff, children_eq, hbefore]
  intro child hchild
  exact hinside child hchild (by have := hinsidelevels child hchild; omega)

/-- What the role of a node says of its height. -/
def Role.Bounds : Role → Node → Prop
  | .expr, node | .argument, node => Roomy 0 node
  | .factor, node | .tables, node => Roomy 1 node
  | .selectItem, node | .orderItem, node =>
    ∀ b, node.levels ≤ b → node.height ≤ triangle (b + 1) + 1
  | .select, node | .statement, node =>
    ∀ b, node.levels ≤ b → node.height ≤ triangle (b + 1) + 2

/-- **Every node of a formed tree is as high as its role allows.** -/
theorem bounds_of_formed {role : Role} (h : Formed role node) : role.Bounds node := by
  induction h with
  | logical _ _ _ _ ihleft ihright | arithmetic _ _ _ _ ihleft ihright =>
    exact roomy_link rfl rfl rfl ihleft (List.forall_mem_singleton.mpr ihright)
  | compare _ _ _ _ ihleft ihright =>
    exact roomy_link rfl rfl rfl ihleft
      (List.forall_mem_cons.mpr ⟨roomy_leaf _ rfl, List.forall_mem_singleton.mpr ihright⟩)
  | isNull _ _ ihleft => exact roomy_link rfl rfl rfl ihleft (by simp [inside])
  | inList _ _ _ _ ihleft ihlist => exact roomy_link rfl rfl rfl ihleft ihlist
  | between _ _ _ _ _ _ _ ihleft ihlow ihhigh =>
    exact roomy_link rfl rfl rfl ihleft
      (List.forall_mem_cons.mpr ⟨ihlow, List.forall_mem_singleton.mpr ihhigh⟩)
  | not _ _ ih | negate _ _ ih => exact roomy_down rfl rfl rfl (List.forall_mem_singleton.mpr ih)
  | grouped _ ih | groupedTables _ ih =>
    exact roomy_down rfl rfl rfl (List.forall_mem_singleton.mpr ih)
  | conditional _ _ _ ihcondition ihthen ihelse =>
    exact roomy_down rfl rfl rfl (List.forall_mem_cons.mpr ⟨ihcondition,
      List.forall_mem_cons.mpr ⟨ihthen, List.forall_mem_singleton.mpr ihelse⟩⟩)
  | call _ _ ih => exact roomy_down rfl rfl rfl ih
  | literal _ | identifier _ _ | star => exact roomy_leaf 0 rfl
  | argument _ ih | factor _ ih | query _ ih => exact ih
  | tableRef _ _ _ =>
    intro b hlevels
    have hheight := height_le_of_inside (c := triangle b + 1) rfl rfl hlevels
      (List.forall_mem_singleton.mpr fun _ => by
        have hleaf : (Node.identifier _).height ≤ 0 + 1 + triangle b + 0 := roomy_leaf 0 rfl b ‹_›
        omega)
    simp only [links]
    omega
  | join _ _ _ ihleft ihright ihon =>
    have ihon : Roomy 0 _ := ihon
    exact roomy_link rfl rfl rfl ihleft
      (List.forall_mem_cons.mpr ⟨ihright, List.forall_mem_singleton.mpr ihon.succ⟩)
  | itemStar | qualifiedStar _ _ =>
    intro b hlevels
    exact Nat.le_succ_of_le ((roomy_leaf 0 rfl).height_le hlevels)
  | selectItem _ _ ih | orderItem _ ih =>
    intro b hlevels
    exact height_le_of_inside rfl rfl hlevels
      (List.forall_mem_singleton.mpr fun hlevels => Roomy.height_le ih hlevels)
  | select _ _ _ _ _ _ _ _ ihitems ihtables ihcondition ihgroups ihhaving ihorders =>
    intro b hlevels
    refine height_le_of_inside rfl rfl hlevels fun child hchild hlevels => ?_
    have hexpr (h : Roomy 0 child) : child.height ≤ triangle (b + 1) + 1 := h.succ.height_le hlevels
    simp only [inside, children, Clauses.nodes, List.mem_append] at hchild
    rcases hchild with ((((hchild | hchild) | hchild) | hchild) | hchild) | hchild
    · exact ihitems _ hchild b hlevels
    · exact Roomy.height_le (ihtables _ hchild) hlevels
    · exact hexpr (ihcondition _ hchild)
    · exact hexpr (ihgroups _ hchild)
    · exact hexpr (ihhaving _ hchild)
    · exact ihorders _ hchild b hlevels
  | crosstab _ _ _ ihvalue ihselect ihpivot =>
    intro b hlevels
    obtain ⟨hown, -, hinside⟩ := levels_le_iff.mp hlevels
    obtain ⟨b, rfl⟩ : ∃ b', b = b' + 1 := ⟨b - 1, by simp only [spends] at hown; omega⟩
    simp only [inside, children, spends, List.forall_mem_cons] at hinside
    obtain ⟨hvalue, hselect, hpivot, -⟩ := hinside
    have hvalue := Roomy.height_le ihvalue (b := b) (by omega)
    have hselect := ihselect b (by omega)
    have hpivot := Roomy.height_le ihpivot (b := b) (by omega)
    rw [triangle_succ (b + 1), show triangle (b + 1) + (b + 1 + 1) + 2 =
      triangle (b + 1) + (b + 3) + 1 by omega, height_le_iff]
    simp only [children, List.forall_mem_cons, List.not_mem_nil, false_implies, implies_true,
      and_true]
    omega

/-- **A tree that is read at a limit is no higher than the triangle of the limit allows.** -/
theorem height_le_of_read {limit : Nat} {s : List Char} (hlimit : 1 ≤ limit)
    (h : read limit s = .ok node) : node.height ≤ triangle limit + 2 := by
  have hheight := bounds_of_formed (formed_of_read h) (limit - 1) (levels_le_of_read h)
  rwa [show limit - 1 + 1 = limit by omega] at hheight

end Grammar

end JetSql
