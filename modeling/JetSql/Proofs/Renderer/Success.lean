/-
When rendering succeeds.

A rendering comes to a text if those of the nodes below it do. `bind_eq_ok` takes the steps apart,
`mapM_eq_ok` a list of nodes, and `renderAt_eq_ok` one level of the tree. Which of its operands a
comparison renders, and how, depends on what they are: `cases_of_comparisonText` takes it apart.
-/

import JetSql.Renderer
import Mathlib.Data.List.Forall2

namespace JetSql.Renderer

section

variable {ε α β : Type} {value : β}

theorem bind_eq_ok {first : Except ε α} {next : α → Except ε β} :
    (first >>= next) = .ok value ↔ ∃ middle, first = .ok middle ∧ next middle = .ok value := by
  cases first with
  | error e => simp [bind, Except.bind]
  | ok middle => simp [bind, Except.bind]

theorem pure_eq_ok {value' : β} : (pure value' : Except ε β) = .ok value ↔ value' = value := by
  simp [pure, Except.pure]

theorem mapM_eq_ok {f : α → Except ε β} {xs : List α} {ys : List β} :
    xs.mapM f = .ok ys ↔ List.Forall₂ (fun x y => f x = .ok y) xs ys := by
  induction xs generalizing ys with
  | nil => rw [List.mapM_nil, pure_eq_ok, List.forall₂_nil_left_iff, eq_comm]
  | cons x xs ih =>
    simp only [List.mapM_cons, bind_eq_ok, pure_eq_ok, List.forall₂_cons_left_iff, ih]
    constructor
    · rintro ⟨y, hy, ys, hys, rfl⟩
      exact ⟨y, ys, hy, hys, rfl⟩
    · rintro ⟨y, ys, hy, hys, rfl⟩
      exact ⟨y, hy, ys, hys, rfl⟩

theorem forall_mem_of_forall₂ {f : α → Except ε β} {p : β → Prop} {xs : List α} {ys : List β}
    (h : List.Forall₂ (fun x y => f x = .ok y) xs ys) (hp : ∀ x ∈ xs, ∀ y, f x = .ok y → p y) :
    ∀ y ∈ ys, p y := by
  induction h with
  | nil => simp
  | cons hxy _ ih =>
    obtain ⟨hx, hxs⟩ := List.forall_mem_cons.mp hp
    exact List.forall_mem_cons.mpr ⟨hx _ hxy, ih hxs⟩

/-- What holds of the text of each of several nodes, when all of them are rendered. -/
theorem forall₂_of_mapM {p : List Char → Node → Prop} {visit : Node → Except Error String}
    {nodes : List Node} {texts : List String}
    (hnodes : ∀ node ∈ nodes, ∀ text, visit node = .ok text → p text.toList node)
    (htexts : List.Forall₂ (fun node text => visit node = .ok text) nodes texts) :
    List.Forall₂ p (texts.map String.toList) nodes := by
  induction htexts with
  | nil => exact .nil
  | cons htext _ ih =>
    obtain ⟨hnode, hnodes⟩ := List.forall_mem_cons.mp hnodes
    exact .cons (hnode _ htext) (ih hnodes)

end

variable {renderer : Renderer} {visit : Node → Except Error String} {levels : Nat} {node : Node}
  {nodes : List Node} {keyword text : String}

theorem listText_eq_ok : listText visit nodes = .ok text ↔
    ∃ texts, List.Forall₂ (fun node text => visit node = .ok text) nodes texts ∧
      String.intercalate ", " texts = text := by
  simp only [listText, bind_eq_ok, pure_eq_ok, mapM_eq_ok]

theorem clauseText_eq_ok {clause : Option Node} : clauseText visit keyword clause = .ok text ↔
    clause = none ∧ "" = text ∨
      ∃ node shown, clause = some node ∧ visit node = .ok shown ∧ keyword ++ shown = text := by
  cases clause with
  | none => simp [clauseText]
  | some node =>
    simp only [clauseText, bind_eq_ok, pure_eq_ok, Option.some.injEq, reduceCtorEq, false_and,
      false_or]
    constructor
    · rintro ⟨shown, hshown, rfl⟩
      exact ⟨node, shown, rfl, hshown, rfl⟩
    · rintro ⟨_, shown, rfl, hshown, rfl⟩
      exact ⟨shown, hshown, rfl⟩

theorem clauseListText_eq_ok : clauseListText visit keyword nodes = .ok text ↔
    nodes = [] ∧ "" = text ∨
      nodes ≠ [] ∧ ∃ shown, listText visit nodes = .ok shown ∧ keyword ++ shown = text := by
  cases nodes with
  | nil => simp [clauseListText]
  | cons node nodes =>
    simp only [clauseListText, List.isEmpty_cons, Bool.false_eq_true, if_false, bind_eq_ok,
      pure_eq_ok, reduceCtorEq, ne_eq, not_false_eq_true, true_and, false_and, false_or]

theorem conditionalText_eq_ok {condition thenValue elseValue : Node} :
    conditionalText visit condition thenValue elseValue = .ok text ↔
      ∃ shown, visit condition = .ok shown ∧ ∃ thenText, visit thenValue = .ok thenText ∧
        ∃ elseText, visit elseValue = .ok elseText ∧
          "(CASE WHEN " ++ shown ++ " THEN " ++ thenText ++ " ELSE " ++ elseText ++ " END)" =
            text := by
  simp only [conditionalText, bind_eq_ok, pure_eq_ok]

/-! ### Comparisons -/

/-- Whether an operand is a string literal to the right of an operator that takes a pattern. -/
def isPattern : Node → Node → Bool
  | .operator op, .literal (.string ..) => op.takesPattern
  | _, _ => false

/-- The text of the right operand of a comparison, which may be a pattern. -/
def rightText (visit : Node → Except Error String) (op right : Node) : Except Error String :=
  match op, right with
  | .operator symbol, .literal (.string value quote) =>
    if symbol.takesPattern then patternText value quote else visit right
  | _, right => visit right

theorem rightText_eq_visit {op right : Node} (h : isPattern op right = false) :
    rightText visit op right = visit right := by
  fun_cases rightText visit op right with
  | case1 symbol value quote hpattern => simp [isPattern, hpattern] at h
  | case2 => rfl
  | case3 => rfl

theorem exists_of_isPattern {op right : Node} (h : isPattern op right = true) :
    ∃ symbol value quote, op = .operator symbol ∧ right = .literal (.string value quote) ∧
      symbol.takesPattern = true := by
  unfold isPattern at h
  split at h
  · exact ⟨_, _, _, rfl, rfl, h⟩
  · cases h

/-- A comparison without a conditional on its left shows its operands, the right one first. -/
theorem comparisonText_eq {left : Node} (op right : Node)
    (hleft : ∀ condition thenValue elseValue, left ≠ .conditional condition thenValue elseValue) :
    comparisonText visit left op right = (do
      let rightText ← rightText visit op right
      return (← visit left) ++ " " ++ (← visit op) ++ " " ++ rightText) := by
  fun_cases comparisonText visit left op right with
  | case1 => exact absurd rfl (hleft _ _ _)
  | case2 _ _ symbol value quote hpattern => rw [rightText, if_pos hpattern]
  | case3 _ _ symbol value quote hpattern => rw [rightText, if_neg hpattern]
  | case4 _ _ _ _ right hliteral =>
    rw [rightText]
    exact hliteral

/-- A comparison shows both operands, the right one perhaps as a pattern, or else the conditional on
its left. -/
theorem cases_of_comparisonText {left op right : Node}
    (h : comparisonText visit left op right = .ok text) :
    (∃ condition thenValue elseValue, left = .conditional condition thenValue elseValue ∧
      conditionalText visit condition thenValue elseValue = .ok text) ∨
    (∀ condition thenValue elseValue, left ≠ .conditional condition thenValue elseValue) ∧
      ∃ leftText opText shown, visit left = .ok leftText ∧ visit op = .ok opText ∧
        (isPattern op right = false ∧ visit right = .ok shown ∨
          ∃ symbol value quote, op = .operator symbol ∧ right = .literal (.string value quote) ∧
            symbol.takesPattern = true ∧ patternText value quote = .ok shown) ∧
        leftText ++ " " ++ opText ++ " " ++ shown = text := by
  by_cases hleft : ∃ condition thenValue elseValue,
      left = .conditional condition thenValue elseValue
  · obtain ⟨condition, thenValue, elseValue, rfl⟩ := hleft
    exact .inl ⟨condition, thenValue, elseValue, rfl, h⟩
  · simp only [not_exists] at hleft
    rw [comparisonText_eq op right hleft] at h
    simp only [bind_eq_ok, pure_eq_ok] at h
    obtain ⟨shown, hright, leftText, hleftText, opText, hop, rfl⟩ := h
    refine .inr ⟨hleft, leftText, opText, shown, hleftText, hop, ?_, rfl⟩
    cases hpattern : isPattern op right with
    | false => exact .inl ⟨rfl, by rwa [rightText_eq_visit hpattern] at hright⟩
    | true =>
      obtain ⟨symbol, value, quote, rfl, rfl, htakes⟩ := exists_of_isPattern hpattern
      rw [rightText, if_pos htakes] at hright
      exact .inr ⟨symbol, value, quote, rfl, rfl, htakes, hright⟩

/-! ### Levels -/

/-- A node is rendered with the level that is spent on it. -/
theorem renderAt_eq_ok : renderer.renderAt levels node = .ok text ↔
    ∃ below, levels = below + 1 ∧ renderer.nodeText (renderer.renderAt below) node = .ok text := by
  cases levels with
  | zero => simp [renderAt]
  | succ below => simp [renderAt]

end JetSql.Renderer
