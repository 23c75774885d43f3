/-
What a conditional may be given.

The arguments of `IIF` are read as those of any call are, so a bare star is one of them, as in
`COUNT(*)`. Nothing but the number of the arguments is checked afterwards.

* **`conditional_of_parse_iff`:** so every choice of expressions and stars is parsed as a conditional
  somewhere, and nothing else is.
* **`takesExprs_of_parse_iff`:** what is rendered as a bare star below a `CASE` is always such an
  argument.
* **`not_takesExprs_of_parse`:** not all conditionals are given expressions only.
-/

import JetSql.Convert
import JetSql.Proofs.Grammar.Shape
import JetSql.Proofs.ReadBack.Nesting
import JetSql.Proofs.Target.Name

namespace JetSql

open Grammar Node Renderer Target

/-! ### Arguments in parsed trees -/

/-- A conditional is given expressions, if the node is one. -/
def Node.TakesExprs : Node → Prop
  | conditional condition thenValue elseValue =>
    ∀ arg ∈ [condition, thenValue, elseValue], arg.isExpr
  | _ => True

/-- A conditional is given arguments of calls, if the node is one. -/
def Node.TakesArguments : Node → Prop
  | conditional condition thenValue elseValue =>
    ∀ arg ∈ [condition, thenValue, elseValue], Formed .argument arg
  | _ => True

section

variable {role : Role} {node arg condition thenValue elseValue : Node} {renderer : Renderer}
  {visit : Node → Except Error String} {levels : Nat} {text : String}

theorem formed_argument_iff : Formed .argument arg ↔ arg = star ∨ Formed .expr arg := by
  constructor
  · intro h
    cases h with
    | star => exact .inl rfl
    | argument hexpr => exact .inr hexpr
  · rintro (rfl | hexpr)
    · exact .star
    · exact .argument hexpr

theorem Grammar.Formed.takesArguments (h : Formed role node) : node.TakesArguments := by
  induction h with
  | argument _ ih | factor _ ih | query _ ih => exact ih
  | conditional hcondition hthen helse =>
    exact List.forall_mem_cons.mpr
      ⟨hcondition, List.forall_mem_cons.mpr ⟨hthen, List.forall_mem_singleton.mpr helse⟩⟩
  | _ => trivial

/-- Below every conditional of a parsed tree there are arguments of calls. -/
theorem formed_argument_of_parse {source : String} {limit depth : Nat} {tree : Node}
    (h : parse source limit = .ok tree)
    (hmem : (depth, conditional condition thenValue elseValue) ∈ tree.walk 0) :
    ∀ arg ∈ [condition, thenValue, elseValue], Formed .argument arg := by
  have hformed : Formed .statement tree := formed_of_read (read_of_parse h)
  exact hformed.everywhere Formed.takesArguments (fun _ => trivial) _ hmem

theorem mem_walk_selecting (node : Node) : (2, node) ∈ (selecting node).walk 0 := by
  rw [selecting, walk_eq]
  refine List.mem_cons_of_mem _ (List.mem_flatMap.mpr ⟨selectItem node none, ?_, ?_⟩)
  · simp [children, Clauses.nodes]
  · rw [walk_eq]
    refine List.mem_cons_of_mem _ (List.mem_flatMap.mpr ⟨node, List.mem_singleton_self _, ?_⟩)
    rw [walk_eq]
    exact List.mem_cons_self

/-- **The conditionals of parsed trees are those that are given arguments of calls.** -/
theorem conditional_of_parse_iff :
    (∃ source limit tree, parse source limit = .ok tree ∧
        ∃ depth, (depth, conditional condition thenValue elseValue) ∈ tree.walk 0) ↔
      ∀ arg ∈ [condition, thenValue, elseValue], Formed .argument arg := by
  constructor
  · rintro ⟨_, _, _, hparse, _, hmem⟩
    exact formed_argument_of_parse hparse hmem
  · simp only [List.forall_mem_cons]
    rintro ⟨hcondition, hthen, helse, -⟩
    -- A statement that selects the conditional, under a limit that suits it.
    have hfits : (conditional condition thenValue elseValue).levels ≤ _ + 1 - 1 := Nat.le_refl _
    have hparse := parse_selecting (.conditional hcondition hthen helse) hfits
    exact ⟨_, _, _, hparse, 2, mem_walk_selecting _⟩

/-- Arguments are expressions exactly where no star stands below a conditional. -/
theorem takesExprs_iff (hstars : OnlyBelow .star [.query, .call, .conditional] node)
    (hargs : node.TakesArguments) : node.TakesExprs ↔ OnlyBelow .star [.query, .call] node := by
  cases node with
  | conditional condition thenValue elseValue =>
    constructor
    · intro hexprs child hchild hstar
      exact absurd (by simp [hstar]) (kind_of_isExpr (hexprs child hchild))
    · intro hno arg harg
      rcases formed_argument_iff.mp (hargs arg harg) with rfl | hexpr
      · exact absurd (hno star harg rfl) (by simp [kind])
      · exact hexpr.admits
  | query | call => exact iff_of_true trivial fun _ _ _ => by simp [kind]
  | _ =>
    exact iff_of_true trivial fun child hchild hstar =>
      absurd (hstars child hchild hstar) (by simp [kind])

/-! ### Stars in the text -/

theorem ne_star_of_mem {c : Char} (hmem : c ∈ text.toList) (hc : c ≠ '*') : text ≠ "*" := by
  rintro rfl
  exact hc (List.mem_singleton.mp hmem)

/-- A star is read as a name that is no word. -/
theorem partsText_ne_star {parts : List Part} (hne : parts ≠ []) (h : ∀ part ∈ parts, part.Formed) :
    renderer.partsText parts ≠ "*" := by
  intro hstar
  have hspelled : ∀ part ∈ parts, part.Spelled := fun part hpart => (h part hpart).spelled
  have hread := readName?_partsText renderer hne hspelled
  have hone : readPart? renderer.dialect.nameQuote "*".toList = some (⟨"*", false⟩, []) := by
    cases renderer.dialect <;> decide
  rw [hstar, readName?_last hone] at hread
  obtain rfl := Option.some.inj hread
  exact absurd (hspelled ⟨"*", false⟩ (List.mem_singleton_self _) rfl) (by decide)

theorem literalText_ne_star {value : Literal} (hvalue : value.Formed)
    (h : renderer.literalText value = .ok text) : text ≠ "*" := by
  cases value with
  | string value quote =>
    obtain rfl := Except.ok.inj h
    exact ne_star_of_mem (c := '\'') (by simp [stringText]) (by decide)
  | number value =>
    obtain rfl := Except.ok.inj h
    rintro rfl
    exact absurd (isTokenChar_of_isNumber hvalue).2 (by decide)
  | bool value =>
    obtain rfl := Except.ok.inj h
    cases renderer.dialect <;> cases value <;> decide
  | null =>
    obtain rfl := Except.ok.inj h
    decide
  | date value =>
    simp only [literalText, bind_eq_ok, pure_eq_ok] at h
    obtain ⟨moment, -, rfl⟩ := h
    refine ne_star_of_mem (c := '\'') ?_ (by decide)
    cases moment <;> cases hdialect : renderer.dialect <;>
      simp [momentText, hdialect, Dialect.date, Dialect.timestamp]

/-- Operations are written with a blank between their operands, or as calls. -/
theorem arithmeticText_ne_star {op : ArithOp} {left right : String} :
    renderer.arithmeticText op left right ≠ "*" := by
  cases op with
  | intDiv =>
    rw [arithmeticText]
    cases renderer.dialect with
    | postgres | sqlite => exact ne_star_of_mem (c := '(') (by simp [Dialect.intDiv]) (by decide)
    | mysql => exact ne_star_of_mem (c := ' ') (by simp [Dialect.intDiv]) (by decide)
  | _ => exact ne_star_of_mem (c := ' ') (by simp [arithmeticText]) (by decide)

theorem concat_ne_star {dialect : Dialect} {parts : List String} : dialect.concat parts ≠ "*" := by
  cases dialect with
  | postgres | mysql => exact ne_star_of_mem (c := 'C') (by simp [Dialect.concat]) (by decide)
  | sqlite =>
    cases parts with
    | nil => exact (by decide : "" ≠ "*")
    | cons first parts =>
      refine ne_star_of_mem (c := 'C') ?_ (by decide)
      cases parts <;> simp [Dialect.concat]

theorem conditionalText_ne_star
    (h : conditionalText visit condition thenValue elseValue = .ok text) : text ≠ "*" := by
  obtain ⟨shown, -, thenText, -, elseText, -, rfl⟩ := conditionalText_eq_ok.mp h
  exact ne_star_of_mem (c := '(') (by simp) (by decide)

/-- No expression is rendered as a bare star. -/
theorem nodeText_ne_star (h : Formed .expr node) (htext : renderer.nodeText visit node = .ok text) :
    text ≠ "*" := by
  cases h with
  | logical =>
    simp only [nodeText, bind_eq_ok, pure_eq_ok] at htext
    obtain ⟨left, -, right, -, rfl⟩ := htext
    exact ne_star_of_mem (c := ' ') (by simp) (by decide)
  | compare =>
    rcases cases_of_comparisonText htext with ⟨_, _, _, rfl, htext⟩ | ⟨-, _, _, _, -, -, -, rfl⟩
    · exact conditionalText_ne_star htext
    · exact ne_star_of_mem (c := ' ') (by simp) (by decide)
  | isNull =>
    simp only [nodeText, bind_eq_ok, pure_eq_ok] at htext
    obtain ⟨shown, -, rfl⟩ := htext
    exact ne_star_of_mem (c := 'N') (by simp) (by decide)
  | inList =>
    simp only [nodeText, bind_eq_ok, pure_eq_ok] at htext
    obtain ⟨shown, -, listed, -, rfl⟩ := htext
    exact ne_star_of_mem (c := ' ') (by simp) (by decide)
  | between =>
    simp only [nodeText, bind_eq_ok, pure_eq_ok] at htext
    obtain ⟨shown, -, low, -, high, -, rfl⟩ := htext
    exact ne_star_of_mem (c := ' ') (by simp) (by decide)
  | @arithmetic left right op =>
    by_cases hop : op = .concat
    · subst hop
      simp only [nodeText, bind_eq_ok, pure_eq_ok] at htext
      obtain ⟨parts, -, rfl⟩ := htext
      exact concat_ne_star
    · simp only [nodeText, bind_eq_ok, pure_eq_ok] at htext
      obtain ⟨leftText, -, rightText, -, rfl⟩ := htext
      exact arithmeticText_ne_star
  | not =>
    simp only [nodeText, bind_eq_ok, pure_eq_ok] at htext
    obtain ⟨shown, -, rfl⟩ := htext
    exact ne_star_of_mem (c := 'N') (by simp) (by decide)
  | @negate expr =>
    simp only [nodeText, bind_eq_ok, pure_eq_ok] at htext
    obtain ⟨shown, -, rfl⟩ := htext
    refine ne_star_of_mem (c := '-') ?_ (by decide)
    unfold negateText
    split <;> simp
  | grouped =>
    simp only [nodeText, bind_eq_ok, pure_eq_ok] at htext
    obtain ⟨shown, -, rfl⟩ := htext
    exact ne_star_of_mem (c := '(') (by simp) (by decide)
  | conditional => exact conditionalText_ne_star htext
  | call =>
    simp only [nodeText, bind_eq_ok, pure_eq_ok] at htext
    obtain ⟨shown, -, rfl⟩ := htext
    exact ne_star_of_mem (c := '(') (by simp) (by decide)
  | literal hvalue => exact literalText_ne_star hvalue htext
  | identifier hne hparts =>
    obtain rfl := Except.ok.inj htext
    exact partsText_ne_star hne hparts

theorem renderAt_star_iff (harg : Formed .argument arg) (h : renderer.renderAt levels arg = .ok text) :
    text = "*" ↔ arg = star := by
  obtain ⟨below, rfl, hnode⟩ := renderAt_eq_ok.mp h
  rcases formed_argument_iff.mp harg with rfl | hexpr
  · exact iff_of_true (Except.ok.inj hnode).symm rfl
  · refine iff_of_false (nodeText_ne_star hexpr hnode) ?_
    rintro rfl
    cases hexpr

end

/-- **What conditionals are given.** In a parsed tree they are given expressions only, exactly if no
star stands right below one of them. Each of their arguments is an expression or a star, and the text
of an argument is a bare star exactly if the argument is one. -/
theorem takesExprs_of_parse_iff {source : String} {limit : Nat} {tree : Node}
    (h : parse source limit = .ok tree) :
    (tree.Everywhere TakesExprs ↔ tree.Everywhere (OnlyBelow .star [.query, .call])) ∧
      ∀ {depth : Nat} {condition thenValue elseValue : Node},
        (depth, Node.conditional condition thenValue elseValue) ∈ tree.walk 0 →
          ∀ arg ∈ [condition, thenValue, elseValue], (arg = .star ∨ arg.isExpr) ∧
            ∀ (renderer : Renderer) (levels : Nat) (text : String),
              renderer.renderAt levels arg = .ok text → (text = "*" ↔ arg = .star) := by
  have hformed : Formed .statement tree := formed_of_read (read_of_parse h)
  have hargs : tree.Everywhere TakesArguments :=
    hformed.everywhere Formed.takesArguments fun _ => trivial
  refine ⟨forall₂_congr fun entry hentry =>
    takesExprs_iff ((shaped_of_formed hformed).stars entry hentry) (hargs entry hentry), ?_⟩
  intro depth condition thenValue elseValue hmem arg harg
  have hargument := formed_argument_of_parse h hmem arg harg
  exact ⟨hargument.admits, fun renderer levels text => renderAt_star_iff hargument⟩

/-- `IIF(*, 1, 2)`. -/
def starred : Node :=
  .conditional .star (number "1") (number "2")

theorem parse_starred : parse "SELECT IIF(*, 1, 2)" 64 = .ok (selecting starred) := by
  have hnumber {text : String} (h : IsNumber text.toList) : Formed .argument (number text) :=
    .argument (.literal h)
  have hformed : Formed .expr starred :=
    .conditional .star (hnumber (.whole (by decide) (by decide)))
      (hnumber (.whole (by decide) (by decide)))
  have hlevels : starred.levels ≤ 64 - 1 := by
    refine levels_le_of_children rfl (by decide) ?_
    exact List.forall_mem_cons.mpr ⟨levels_leaf rfl rfl rfl, List.forall_mem_cons.mpr
      ⟨levels_leaf rfl rfl rfl, List.forall_mem_singleton.mpr (levels_leaf rfl rfl rfl)⟩⟩
  exact parse_of_selecting hformed hlevels rfl

/-- The star is all that is wrong here. -/
theorem takesExprs_of_parse_iff_starred :
    parse "SELECT IIF(*, 1, 2)" 64 = .ok (selecting starred) ∧
      ¬ (selecting starred).Everywhere TakesExprs := by
  refine ⟨parse_starred, ?_⟩
  rw [(takesExprs_of_parse_iff parse_starred).1]
  intro h
  have hplace := h (2, starred) (mem_walk_selecting starred) .star List.mem_cons_self rfl
  simp [starred, kind] at hplace

/-- **A conditional may be given a star**, and its text is a `CASE` with nothing but a star for a
condition. -/
theorem not_takesExprs_of_parse :
    (¬ ∀ source limit tree, parse source limit = .ok tree → tree.Everywhere TakesExprs) ∧
      convert .default "SELECT IIF(*, 1, 2)" = .ok "SELECT (CASE WHEN * THEN 1 ELSE 2 END)" := by
  constructor
  · intro h
    have hexprs := h _ _ _ parse_starred (2, starred) (mem_walk_selecting starred)
    exact absurd (hexprs .star List.mem_cons_self) (by decide)
  · have hrender : (ofConfig .default).render (selecting starred) =
        .ok "SELECT (CASE WHEN * THEN 1 ELSE 2 END)" := by decide
    exact (congrArg (· >>= (ofConfig .default).render) parse_starred).trans hrender

end JetSql
