/-
Where the scan loses step with the reader.

Two minus signs before a string literal are two negations if the line they stand on ends with a
carriage return alone. The scan takes them for a comment and the literal with it, up to the next line
feed. What follows in the literal, it takes for the statement.

* **`parse_of_read`:** the scan lets through what the grammar reads if the comments end well; without
  that it does so at every text exactly for the limits up to two.
-/

import JetSql.Proofs.ReadBack.Nesting
import Mathlib

namespace JetSql

namespace Grammar

open Reader Node

variable {limit : Nat}

/-- A string literal with a carriage return alone, a line feed and then parentheses. -/
def sheltered (n : Nat) : Literal :=
  .string (String.ofList ('\r' :: ' ' :: '\n' :: List.replicate n '(')) '\''

theorem source_sheltered (n : Nat) :
    (sheltered n).source = '\'' :: '\r' :: ' ' :: '\n' :: (List.replicate n '(' ++ ['\'']) := by
  simp [sheltered, Literal.source]

/-- A statement with two minus signs before such a literal. -/
def misleading (n : Nat) : List Char :=
  "SELECT ".toList ++ '-' :: '-' :: (sheltered n).source

theorem misleading_eq (n : Nat) : misleading n = "SELECT ".toList ++
    '-' :: '-' :: '\'' :: '\r' :: ' ' :: '\n' :: (List.replicate n '(' ++ ['\'']) := by
  rw [← source_sheltered]
  exact Eq.refl (misleading n)

/-! ### What the reader finds -/

theorem paired_replicate {delimiter c : Char} (h : c ≠ delimiter) (n : Nat) :
    Text.paired delimiter (List.replicate n c) = true := by
  induction n with
  | zero => rfl
  | succ n ih => rw [List.replicate_succ, Text.paired_cons h, ih]

theorem formed_sheltered (n : Nat) : (sheltered n).Formed := by
  refine ⟨.inl rfl, ?_⟩
  rw [String.toList_ofList, Text.paired_cons (by decide), Text.paired_cons (by decide),
    Text.paired_cons (by decide), paired_replicate (by decide)]

/-- The reader takes the minus signs for two negations. -/
theorem read_misleading (hlimit : 3 ≤ limit) (n : Nat) :
    read limit (misleading n) = .ok (selecting (negate (negate (.literal (sheltered n))))) := by
  obtain ⟨b, hb⟩ : ∃ b, limit - 1 = b + 1 + 1 := ⟨limit - 3, by omega⟩
  have hopen :
      skipSpacing ('-' :: '-' :: (sheltered n).source) = '-' :: '-' :: (sheltered n).source := by
    rw [source_sheltered]
    rfl
  have hskip : skipSpacing ('-' :: (sheltered n).source) = '-' :: (sheltered n).source := by
    rw [source_sheltered]
    rfl
  have hstops (least : Nat) : Stops least [] := Closes.stops (.inl (.inl rfl)) least
  have hapart : Apart [] := (Closes.apart (.inl (.inl rfl)))
  have hliteral : operand limit b 10 (sheltered n).source = .ok (.literal (sheltered n)) [] := by
    have hleading : leading limit (belowAt limit b) ((sheltered n).source ++ []) = _ :=
      leading_literal (formed_sheltered n) hapart
    rw [List.append_nil] at hleading
    rw [operand_of_leading hleading, chain_of_stops hapart.unbroken (hstops _)]
  have hinner : operand limit (b + 1) 10 ('-' :: (sheltered n).source) =
      .ok (negate (.literal (sheltered n))) [] := by
    rw [operand_of_leading (leading_negate hskip hliteral), chain_of_stops hapart.unbroken (hstops _)]
  refine read_selecting (.mark hopen (by decide) (by decide) (by decide)) ?_
  rw [hb, expression, operand_of_leading (leading_negate hopen hinner), chain_of_stops hapart.unbroken (hstops _)]

/-! ### What the scan finds -/

theorem deepestFrom_replicate (level deepest n : Nat) (s : List Char) (h : level ≤ deepest) :
    deepestFrom none level deepest (List.replicate n '(' ++ s) =
      deepestFrom none (level + n) (max deepest (level + n)) s := by
  induction n generalizing level deepest with
  | zero => rw [Nat.add_zero, Nat.max_eq_left h]; rfl
  | succ n ih =>
    rw [List.replicate_succ, List.cons_append, deepestFrom, if_pos rfl, ih _ _ (Nat.le_max_right ..)]
    congr 1 <;> omega

/-- The scan counts the parentheses in the literal. -/
theorem nestingDepth_misleading (n : Nat) : nestingDepth (misleading n) = n := by
  have hstart :
      nestingDepth (misleading n) = deepestFrom none 0 0 (List.replicate n '(' ++ ['\'']) := by
    rw [misleading_eq, nestingDepth]
    simp [deepestFrom, closingDelimiter]
  rw [hstart, deepestFrom_replicate 0 0 n _ (Nat.le_refl 0)]
  simp [deepestFrom]

end Grammar

open Grammar Node

/-- **What the grammar reads at a limit, the scan lets through if the comments of the text end well;
and it lets through every text that is read exactly if the limit is two at most.** -/
theorem parse_of_read (limit : Nat) :
    (∀ source node, CommentsEndWell source.toList → read limit source.toList = .ok node →
      parse source limit = .ok node) ∧
    ((∀ source node, read limit source.toList = .ok node → parse source limit = .ok node) ↔
      limit ≤ 2) := by
  have hparse (source : String) (node : Node) (hcomments : limit ≤ 2 ∨ CommentsEndWell source.toList)
      (hread : read limit source.toList = .ok node) : parse source limit = .ok node := by
    have hdepth := nestingDepth_le_of_read hcomments hread
    rw [parse, if_neg (by omega), hread]
  refine ⟨fun source node hcomments => hparse source node (.inr hcomments), ?_, ?_⟩
  · intro h
    by_cases hlimit : limit ≤ 2
    · exact hlimit
    · have hread := read_misleading (by omega : 3 ≤ limit) (limit + 1)
      have hdepth := nestingDepth_misleading (limit + 1)
      have hfound := h (String.ofList (misleading (limit + 1))) _ (by
        rw [String.toList_ofList]
        exact hread)
      rw [parse, String.toList_ofList, hdepth, if_pos (Nat.lt_succ_self limit)] at hfound
      cases hfound
  · exact fun hlimit source node => hparse source node (.inl hlimit)

/-- A comment with a quote and two parentheses in it, which a line feed ends. -/
theorem parse_of_read_commented :
    CommentsEndWell "SELECT --'((\n(1)".toList ∧
      read 2 "SELECT --'((\n(1)".toList = .ok (selecting (.grouped (number "1"))) ∧
      parse "SELECT --'((\n(1)" 2 = .ok (selecting (.grouped (number "1"))) := by
  have hcomments : commentsEndWell none "SELECT --'((\n(1)".toList = true := by decide
  have hread : read 2 "SELECT --'((\n(1)".toList = .ok (selecting (.grouped (number "1"))) := by cbv
  exact ⟨hcomments, hread, (parse_of_read 2).1 _ _ hcomments hread⟩

/-- The grammar reads two negations at a limit of four, and the scan refuses them. -/
theorem parse_of_read_fails :
    (∃ node, read 4 "SELECT --'\r \n((((('".toList = .ok node) ∧
      parse "SELECT --'\r \n((((('" 4 = .error (.tooDeep 5 4) := by
  have hsource : String.ofList (misleading 5) = "SELECT --'\r \n((((('" := by
    rw [← String.toList_inj, String.toList_ofList, misleading_eq]
    decide
  have hdepth : nestingDepth (String.ofList (misleading 5)).toList = 5 := by
    rw [String.toList_ofList, nestingDepth_misleading]
  rw [← hsource]
  refine ⟨⟨selecting (negate (negate (.literal (sheltered 5)))), ?_⟩, ?_⟩
  · rw [String.toList_ofList]
    exact read_misleading (by decide) 5
  · rw [parse, hdepth, if_pos (by decide)]

end JetSql
