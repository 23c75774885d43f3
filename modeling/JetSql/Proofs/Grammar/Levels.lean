/-
The budget of a reading bounds the levels of the tree.

A chain that goes on from an operand has spent one level for every link of that operand already. So
its whole budget is what is left together with those links, and that sum stays the same from link
to link.

* **`levels_le_of_read`:** a tree that is read at a limit needs fewer levels than the limit.
-/

import JetSql.Proofs.Grammar.Derivation
import JetSql.Proofs.Grammar.Leaf
import JetSql.Proofs.Tree.Weight

namespace JetSql.Grammar

open Node

/-- A node fits the budget that its phrase was read under. -/
def Phrase.Fits : Phrase → Nat → Node → Prop
  | .leading, b, node | .factor, b, node => node.links = 0 ∧ node.levels ≤ b
  | .chain _ left, b, node | .joins left, b, node =>
    left.levels ≤ b + left.links → node.levels ≤ b + left.links
  | .complete _ left, b, node =>
    node.links = left.links + 1 ∧ (left.levels ≤ b + node.links → node.levels ≤ b + node.links)
  | _, b, node => node.levels ≤ b

section

variable {node left : Node} {b : Nat}

/-- A node that is no link fits a budget if what it holds fits one level down, or the same budget
where the node spends nothing. -/
theorem levels_le_of_children (hbefore : node.before = []) (hspends : node.spends ≤ b)
    (hinside : ∀ child ∈ node.inside, child.levels ≤ b - node.spends) : node.levels ≤ b := by
  refine levels_le_iff.mpr ⟨hspends, by simp [hbefore], fun child hchild => ?_⟩
  have := hinside child hchild
  omega

/-- A link fits a budget if its left operand does, and what stands after its operator fits the
levels that the chain has not spent. -/
theorem levels_le_of_link (hbefore : node.before = [left]) (hspends : node.spends = left.links + 1)
    (hinside : ∀ child ∈ node.inside, child.levels ≤ b)
    (hleft : left.levels ≤ b + (left.links + 1)) : node.levels ≤ b + (left.links + 1) := by
  refine levels_le_iff.mpr ⟨by omega, by simpa [hbefore] using hleft, fun child hchild => ?_⟩
  have := hinside child hchild
  omega

theorem levels_leaf (hbefore : node.before = []) (hinside : node.inside = [])
    (hspends : node.spends = 0) : node.levels ≤ b :=
  levels_le_of_children hbefore (by omega) (by simp [hinside])

end

/-- **Every phrase fits the budget that it was read under.** -/
theorem fits_of_derives {phrase : Phrase} {b : Nat} {s rest : List Char} {node : Node}
    (h : Derives phrase b s node rest) : phrase.Fits b node := by
  induction h with
  | operand _ _ ihleading ihchain =>
    obtain ⟨hlinks, hlevels⟩ := ihleading
    simpa [Phrase.Fits, hlinks] using ihchain (by simpa [hlinks] using hlevels)
  | not _ _ ih | negate _ _ ih | grouped _ _ _ ih =>
    exact ⟨rfl, levels_le_of_children rfl (by simp [spends]) (List.forall_mem_singleton.mpr ih)⟩
  | conditional _ _ hargs _ _ ih | call _ _ hargs _ _ ih =>
    refine ⟨rfl, levels_le_of_children rfl (by simp [spends]) ?_⟩
    exact hargs.forall_mem ih
  | callEmpty _ _ _ =>
    exact ⟨rfl, levels_le_of_children rfl (by simp [spends]) (by simp [inside, children])⟩
  | literal h =>
    obtain ⟨value, rfl, -⟩ := formed_of_literal h
    exact ⟨rfl, levels_leaf rfl rfl rfl⟩
  | identifier h =>
    obtain ⟨names, rfl, -⟩ := formed_of_identifier h
    exact ⟨rfl, levels_leaf rfl rfl rfl⟩
  | star _ => exact levels_leaf rfl rfl rfl
  | argument _ ih => exact ih
  | chainStop _ => exact fun hleft => hleft
  | @chainLink b _ _ _ _ _ _ left joined _ _ _ _ _ ihcomplete ihchain =>
    obtain ⟨hlinks, hcomplete⟩ := ihcomplete
    simp only [Phrase.Fits, hlinks] at hcomplete ihchain ⊢
    rw [show b + 1 + left.links = b + (left.links + 1) by omega]
    exact fun hleft => ihchain (hcomplete hleft)
  | logical _ ih | arithmetic _ ih =>
    exact ⟨rfl, levels_le_of_link rfl rfl (List.forall_mem_singleton.mpr ih)⟩
  | compare _ ih =>
    exact ⟨rfl, levels_le_of_link rfl rfl
      (List.forall_mem_cons.mpr ⟨levels_leaf rfl rfl rfl, List.forall_mem_singleton.mpr ih⟩)⟩
  | isNull => exact ⟨rfl, levels_le_of_link rfl rfl (by simp [inside])⟩
  | inList _ hlist _ _ ih => exact ⟨rfl, levels_le_of_link rfl rfl (hlist.forall_mem ih)⟩
  | between _ _ _ ihlow ihhigh =>
    exact ⟨rfl, levels_le_of_link rfl rfl
      (List.forall_mem_cons.mpr ⟨ihlow, List.forall_mem_singleton.mpr ihhigh⟩)⟩
  | groupedTables _ _ _ ih =>
    exact ⟨rfl, levels_le_of_children rfl (by simp [spends]) (List.forall_mem_singleton.mpr ih)⟩
  | tableRef htable _ =>
    obtain ⟨names, rfl, -⟩ := formed_of_identifier htable
    exact ⟨rfl, levels_le_of_children rfl (by simp [spends])
      (List.forall_mem_singleton.mpr (levels_leaf rfl rfl rfl))⟩
  | joinsStop _ => exact fun hleft => hleft
  | @join b _ _ _ _ _ _ _ left right _ _ _ _ _ _ _ ihright ihon ihjoins =>
    simp only [Phrase.Fits, links] at ihright ihon ihjoins ⊢
    rw [show b + 1 + left.links = b + (left.links + 1) by omega]
    exact fun hleft => ihjoins (levels_le_of_link rfl rfl
      (List.forall_mem_cons.mpr ⟨ihright.2, List.forall_mem_singleton.mpr ihon⟩) hleft)
  | tables _ _ ihfactor ihjoins =>
    obtain ⟨hlinks, hlevels⟩ := ihfactor
    simpa [Phrase.Fits, hlinks] using ihjoins (by simpa [hlinks] using hlevels)
  | itemStar _ | qualifiedStar _ _ => exact levels_leaf rfl rfl rfl
  | selectItem _ _ ih | orderItem _ _ ih =>
    exact levels_le_of_children rfl (Nat.zero_le _) (List.forall_mem_singleton.mpr ih)
  | select _ _ _ _ hitems htables hcondition hgroups hhaving horders _ _ _ _ ihitems ihtables
      ihexprs ihorders =>
    refine levels_le_of_children rfl (Nat.zero_le _) ?_
    simp only [inside, children, Clauses.nodes, List.forall_mem_append]
    exact ⟨⟨⟨⟨⟨hitems.forall_mem ihitems, htables.forall_mem ihtables⟩,
      hcondition.forall_mem ihexprs⟩, hgroups.forall_mem ihexprs⟩, hhaving.forall_mem ihexprs⟩,
      horders.forall_mem ihorders⟩
  | query _ ih => exact ih
  | crosstab _ _ _ _ _ ihvalue ihselect ihpivot =>
    refine levels_le_of_children rfl (by simp [spends]) ?_
    exact List.forall_mem_cons.mpr ⟨ihvalue,
      List.forall_mem_cons.mpr ⟨ihselect, List.forall_mem_singleton.mpr ihpivot⟩⟩
  | statement _ _ _ ih => exact ih

/-- **A tree that is read at a limit needs fewer levels than the limit.** -/
theorem levels_le_of_read {limit : Nat} {s : List Char} {node : Node}
    (h : read limit s = .ok node) : node.levels ≤ limit - 1 :=
  fits_of_derives (derives_of_read h)

end JetSql.Grammar
