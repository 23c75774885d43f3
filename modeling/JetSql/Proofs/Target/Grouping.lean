/-
Arithmetic keeps its operands in the target.

The source ranks its arithmetic operators on five levels, the targets on two or three. A text is
read back as the tree it was rendered from because each operand binds tightly enough for its place
among the operators of the target: `operandRank` is what a place asks for, and `textRank` what the
text of an operation gives.

* **`read_render`:** the text of an arithmetic tree of any shape is read, by the operator grammar of
  the target, as an expression that stands for the tree.
-/

import JetSql.Proofs.Target.Meaning

namespace JetSql

namespace Target

open Node Renderer Text

variable {renderer : Renderer} {node left right : Node} {text : String} {op parent child : ArithOp}
  {onLeft : Bool} {expr : Expr}

/-! ### Ranks -/

/-- How tightly the text of an operation binds in a dialect. -/
def textRank (dialect : Dialect) : ArithOp → Nat
  | .add | .sub => 1
  | .mul | .div | .mod => 2
  | .intDiv => if dialect = .mysql then 2 else 4
  | .concat => if dialect = .sqlite then 3 else 4

/-- How tightly the operator binds that stands between the operands of an operation. -/
def operandRank : ArithOp → Nat
  | .add | .sub => 1
  | .mul | .div | .mod | .intDiv => 2
  | .concat => 3

/-- **An operand that stands without parentheses binds tightly enough**: on the right more tightly
than the operator, on the left perhaps as tightly. -/
theorem operandRank_le_textRank (hparent : parent ≠ .concat)
    (h : needsParens parent child onLeft = false)
    (dialect : Dialect) : operandRank parent ≤ textRank dialect child ∧
      (onLeft = false → operandRank parent < textRank dialect child) := by
  cases parent <;> cases child <;> cases onLeft <;> cases dialect <;> revert h <;> first
    | exact absurd rfl hparent
    | decide

/-! ### Readings -/

/-- What the text of a node is read as. -/
structure Reading (renderer : Renderer) (text : List Char) (node : Node) (expr : Expr) : Prop where
  spells : Spells renderer.dialect text expr
  ordered : expr.Ordered
  means : Means renderer expr node

/-- How tightly the text of a node binds in a dialect. -/
def nodeRank (dialect : Dialect) : Node → Nat
  | .arithmetic _ op _ => textRank dialect op
  | _ => 4

theorem Reading.meaning {text : List Char} (h : Reading renderer text node expr) :
    Says renderer text node :=
  .arithmetic (read_of_spells h.spells h.ordered) h.means

/-- A text that is one operand. -/
theorem Reading.of_atomic {text : List Char} (h : Atomic renderer.dialect.nameQuote text expr)
    (hmeans : Means renderer expr node) : Reading renderer text node expr :=
  ⟨h.spells, h.1.ordered, hmeans⟩

/-- Parentheses around a text stand for what it stands for. -/
theorem Reading.inserted {text : List Char} (h : Reading renderer text node expr)
    (hbalanced : Balanced text) : Reading renderer ('(' :: (text ++ [')'])) node (.group text) :=
  .of_atomic (atomic_group hbalanced) (.inserted (read_of_spells h.spells h.ordered) h.means)

/-- **With the parentheses that it gets, an operand binds tightly enough for its place.** -/
theorem exists_reading_operandText (hparent : parent ≠ .concat)
    (h : Reading renderer text.toList node expr) (hrank : nodeRank renderer.dialect node ≤ expr.rank)
    (hbalanced : Balanced text.toList) (onLeft : Bool) :
    ∃ operand, Reading renderer (operandText parent onLeft node text).toList node operand ∧
      operandRank parent ≤ operand.rank ∧ (onLeft = false → operandRank parent < operand.rank) := by
  have hlt : operandRank parent < 4 := by cases parent <;> decide
  have hgroup : ("(" ++ text ++ ")").toList = '(' :: (text.toList ++ [')']) := by simp
  cases node with
  | arithmetic left child right =>
    rw [operandText]
    split
    · rw [hgroup]
      exact ⟨.group text.toList, h.inserted hbalanced, Nat.le_of_lt hlt, fun _ => hlt⟩
    · rename_i hparens
      obtain ⟨hleft, hright⟩ :=
        operandRank_le_textRank hparent (Bool.not_eq_true _ ▸ hparens) renderer.dialect
      exact ⟨expr, h, Nat.le_trans hleft hrank, fun honLeft =>
        Nat.lt_of_lt_of_le (hright honLeft) hrank⟩
  | _ =>
    exact ⟨expr, h, Nat.le_trans (Nat.le_of_lt hlt) hrank, fun _ => Nat.lt_of_lt_of_le hlt hrank⟩

/-! ### Operations -/

section

variable {leftText rightText : String} {leftExpr rightExpr : Expr} {infixOp : Operator}

theorem infix?_eq_some {dialect : Dialect} (h : infix? dialect op = some infixOp) :
    infixOp.IsOf dialect ∧ infixOp.rank = operandRank op ∧ infixOp.rank = textRank dialect op := by
  cases op with
  | concat => cases h
  | intDiv =>
    cases dialect with
    | mysql =>
      cases h
      exact ⟨rfl, rfl, rfl⟩
    | postgres | sqlite => cases h
  | _ =>
    cases h
    exact ⟨trivial, rfl, rfl⟩

theorem toList_arithmeticText (h : infix? renderer.dialect op = some infixOp) :
    (renderer.arithmeticText op leftText rightText).toList =
      leftText.toList ++ ' ' :: (infixOp.symbol.toList ++ ' ' :: rightText.toList) := by
  cases op with
  | concat => cases h
  | intDiv =>
    rw [arithmeticText]
    cases hdialect : renderer.dialect with
    | mysql =>
      rw [hdialect] at h
      cases h
      rw [toList_intDiv_mysql]
      rfl
    | postgres | sqlite =>
      rw [hdialect] at h
      cases h
  | _ =>
    cases h
    simp [arithmeticText, Operator.symbol, ArithOp.symbol]

/-- An operation with its operator between the operands. -/
theorem Reading.operation (h : infix? renderer.dialect op = some infixOp)
    (hleft : Reading renderer leftText.toList left leftExpr) (hleftRank : operandRank op ≤ leftExpr.rank)
    (hright : Reading renderer rightText.toList right rightExpr)
    (hrightRank : operandRank op < rightExpr.rank) :
    Reading renderer (renderer.arithmeticText op leftText rightText).toList (.arithmetic left op right)
      (.binary leftExpr infixOp rightExpr) := by
  obtain ⟨hof, hrank, -⟩ := infix?_eq_some h
  rw [toList_arithmeticText h]
  refine ⟨hleft.spells.binary hof hright.spells, ⟨hleft.ordered, hright.ordered, ?_, ?_⟩,
    .operation h hleft.means hright.means⟩
  · rwa [hrank]
  · rwa [hrank]

/-- **What an operation is read as, given what its operands are read as.** -/
theorem exists_reading_arithmeticText (hop : op ≠ .concat)
    (hleft : Reading renderer leftText.toList left leftExpr) (hleftRank : operandRank op ≤ leftExpr.rank)
    (hleftBalanced : Balanced leftText.toList)
    (hright : Reading renderer rightText.toList right rightExpr)
    (hrightRank : operandRank op < rightExpr.rank) (hrightBalanced : Balanced rightText.toList) :
    ∃ expr, Reading renderer (renderer.arithmeticText op leftText rightText).toList
        (.arithmetic left op right) expr ∧ textRank renderer.dialect op ≤ expr.rank := by
  cases hinfix : infix? renderer.dialect op with
  | some infixOp =>
    exact ⟨_, hleft.operation hinfix hleftRank hright hrightRank,
      Nat.le_of_eq (infix?_eq_some hinfix).2.2.symm⟩
  | none =>
    obtain rfl : op = .intDiv := by
      cases op <;> first
        | rfl
        | exact absurd rfl hop
        | cases hinfix
    have hquote := isQuote_nameQuote renderer.dialect
    rw [arithmeticText]
    cases hdialect : renderer.dialect with
    | mysql =>
      rw [hdialect] at hinfix
      cases hinfix
    | postgres =>
      have hinside := (hleftBalanced.append balanced_comma).append hrightBalanced
      rw [toList_intDiv_postgres]
      exact ⟨_, .of_atomic (atomic_call hquote (by decide) (by decide) hinside)
        (.divCall hdialect hleft.meaning hright.meaning), Nat.le_refl 4⟩
    | sqlite =>
      have hdiv : Operator.div.IsOf renderer.dialect := trivial
      have hordered : Expr.Ordered (.binary leftExpr .div rightExpr) :=
        ⟨hleft.ordered, hright.ordered, hleftRank, hrightRank⟩
      have hends : Ends " AS INTEGER".toList := .inr ⟨_, rfl⟩
      have hread := readPrefix_of_spells (hleft.spells.binary hdiv hright.spells) hordered hends
        (by rw [hdialect]; rfl)
      have hinside : Balanced (leftText.toList ++ ' ' :: ("/".toList ++ ' ' :: rightText.toList) ++
          " AS INTEGER".toList) :=
        (balanced_infixed hleftBalanced (by decide) hrightBalanced).append (balanced_of_all (by decide))
      rw [toList_intDiv_sqlite]
      exact ⟨_, .of_atomic (atomic_call hquote (by decide) (by decide) hinside)
        (.divCast hdialect (hdialect ▸ hread) hleft.means hright.means), Nat.le_refl 4⟩

end

/-- **What a chain of `&` is read as, given what its operands say.** -/
theorem exists_reading_concat {parts : List String}
    (hparts : List.Forall₂ (Says renderer) (parts.map String.toList)
      (concatOperands (.arithmetic left .concat right)))
    (hbalanced : ∀ part ∈ parts, Balanced part.toList) :
    ∃ expr, Reading renderer (renderer.dialect.concat parts).toList
        (.arithmetic left .concat right) expr ∧
      textRank renderer.dialect .concat ≤ expr.rank := by
  have hquote := isQuote_nameQuote renderer.dialect
  have hchain := chain_concatOperands (.arithmetic left .concat right)
  have hcommas : Balanced (commas (parts.map String.toList)) :=
    balanced_commas (List.forall_mem_map.mpr hbalanced)
  cases hdialect : renderer.dialect with
  | postgres =>
    rw [toList_concat_postgres]
    exact ⟨_, .of_atomic (atomic_call hquote (by decide) (by decide) hcommas)
      (.concatCall hdialect hchain hparts), Nat.le_refl 4⟩
  | mysql =>
    have hinside : Balanced ("'', ".toList ++ commas (parts.map String.toList)) :=
      (balanced_emptyText.append balanced_comma).append hcommas
    rw [toList_concat_mysql]
    exact ⟨_, .of_atomic (atomic_call hquote (by decide) (by decide) hinside)
      (.concatSeparated hdialect hchain hparts), Nat.le_refl 4⟩
  | sqlite =>
    cases parts with
    | nil => simp [concatOperands] at hparts
    | cons first others =>
      obtain ⟨hfirst, hothers⟩ := List.forall_mem_cons.mp hbalanced
      obtain ⟨hspells, hordered, hrank⟩ :=
        spells_joined (atomic_coalesced hfirst .sqlite).spells trivial (Nat.le_succ 3)
          (List.forall_mem_map.mpr hothers)
      refine ⟨_, ⟨?_, hordered, .concatJoined hdialect hchain hparts⟩, hrank⟩
      rw [hdialect, toList_concat_sqlite, intercalate_map_cons]
      simpa [List.flatMap_map] using hspells

/-! ### Trees -/

/-- What the texts of the trees below a node are read as. -/
def ReadsBack (renderer : Renderer) (visit : Node → Except Error String) (node : Node) : Prop :=
  ∀ text, visit node = .ok text → ∃ expr, Reading renderer text.toList node expr ∧
    nodeRank renderer.dialect node ≤ expr.rank ∧
    (node.kind ≠ .arithmetic → node.kind ≠ .negate →
      Atomic renderer.dialect.nameQuote text.toList expr)

theorem exists_reading_negateText (h : Reading renderer text.toList node expr)
    (hatomic : node.kind ≠ .arithmetic → node.kind ≠ .negate →
      Atomic renderer.dialect.nameQuote text.toList expr)
    (hbalanced : Balanced text.toList) :
    ∃ operand, Reading renderer (negateText node text).toList (.negate node) operand ∧
      operand.rank = 4 := by
  have hparens :
      Reading renderer ("-(" ++ text ++ ")").toList (.negate node) (.minus (.group text.toList)) := by
    have hinserted := h.inserted hbalanced
    have htext : ("-(" ++ text ++ ")").toList = '-' :: '(' :: (text.toList ++ [')']) := by simp
    rw [htext]
    exact ⟨(atomic_group hbalanced).spells_minus, trivial, .negate hinserted.means⟩
  unfold negateText
  split
  · exact ⟨_, hparens, rfl⟩
  · exact ⟨_, hparens, rfl⟩
  · rename_i harithmetic hnegate
    have hsign := hatomic (by cases node <;> simp_all [kind]) (by cases node <;> simp_all [kind])
    rw [String.toList_append]
    exact ⟨_, ⟨hsign.spells_minus, trivial, .negate h.means⟩, rfl⟩

/-- What a text stands for, whether it is arithmetic or not. -/
theorem says_of_readsBack {levels : Nat} {visited : Node}
    (h : visited.IsArithmetic → ReadsBack renderer (renderer.renderAt levels) visited)
    (hvisited : renderer.renderAt levels visited = .ok text) : Says renderer text.toList visited := by
  by_cases harithmetic : visited.IsArithmetic
  · obtain ⟨_, hreading, -⟩ := h harithmetic text hvisited
    exact hreading.meaning
  · exact .other harithmetic hvisited

/-- **Arithmetic of any shape is read back from its text**, at every number of levels. -/
theorem readsBack_renderAt (hcalls : renderer.CallsNames) (hnode : node.Everywhere Spelled)
    (harithmetic : node.IsArithmetic) (levels : Nat) :
    ReadsBack renderer (renderer.renderAt levels) node := by
  induction levels generalizing node with
  | zero => exact fun _ h => nomatch h
  | succ levels ih =>
    intro text h
    obtain ⟨hspelled, hbelow⟩ := everywhere_iff.mp hnode
    have hbalanced {visited : Node} (hvisited : visited.Everywhere Spelled) :
        Shows (renderer.renderAt levels) visited :=
      balanced_renderAt hcalls hvisited levels
    have hmeaning {visited : Node} (hvisited : visited.Everywhere Spelled) {text : String}
        (h : renderer.renderAt levels visited = .ok text) : Says renderer text.toList visited :=
      says_of_readsBack (ih hvisited) h
    change renderer.nodeText (renderer.renderAt levels) node = .ok text at h
    cases harithmetic with
    | @operation left right op hleft hright =>
      by_cases hop : op = .concat
      · subst hop
        simp only [nodeText, bind_eq_ok, pure_eq_ok, mapM_eq_ok] at h
        obtain ⟨parts, hparts, rfl⟩ := h
        have hoperands (operand)
            (hoperand : operand ∈ concatOperands (.arithmetic left .concat right)) :
            operand.Everywhere Spelled :=
          everywhere_of_mem_concatOperands hnode hoperand
        have hsaid := forall₂_of_mapM
          (fun operand hoperand _ => hmeaning (hoperands operand hoperand)) hparts
        have hshown := forall_mem_of_forall₂ hparts fun operand hoperand =>
          hbalanced (hoperands operand hoperand)
        obtain ⟨expr, hreading, hrank⟩ := exists_reading_concat hsaid hshown
        exact ⟨expr, hreading, hrank, fun hkind => absurd rfl hkind⟩
      · have hleftBelow := hbelow left (by simp [children])
        have hrightBelow := hbelow right (by simp [children])
        simp only [nodeText, bind_eq_ok, pure_eq_ok] at h
        obtain ⟨leftText, hleftText, rightText, hrightText, rfl⟩ := h
        obtain ⟨_, hreadLeft, hleftRank, -⟩ := ih hleftBelow hleft _ hleftText
        obtain ⟨_, hreadRight, hrightRank, -⟩ := ih hrightBelow hright _ hrightText
        have hbalancedLeft := hbalanced hleftBelow _ hleftText
        have hbalancedRight := hbalanced hrightBelow _ hrightText
        obtain ⟨_, hreadLeft, hle, -⟩ :=
          exists_reading_operandText hop hreadLeft hleftRank hbalancedLeft true
        obtain ⟨_, hreadRight, -, hlt⟩ :=
          exists_reading_operandText hop hreadRight hrightRank hbalancedRight false
        obtain ⟨expr, hreading, hrank⟩ := exists_reading_arithmeticText hop
          hreadLeft hle (balanced_operandText hbalancedLeft)
          hreadRight (hlt rfl) (balanced_operandText hbalancedRight)
        exact ⟨expr, hreading, hrank, fun hkind => absurd rfl hkind⟩
    | @negate expr hexpr =>
      have hexprBelow := hbelow expr (by simp [children])
      simp only [nodeText, bind_eq_ok, pure_eq_ok] at h
      obtain ⟨shown, hshown, rfl⟩ := h
      obtain ⟨_, hreading, -, hatomic⟩ := ih hexprBelow hexpr _ hshown
      obtain ⟨operand, hreading, hrank⟩ :=
        exists_reading_negateText hreading hatomic (hbalanced hexprBelow _ hshown)
      exact ⟨operand, hreading, Nat.le_of_eq hrank.symm, fun _ hkind => absurd rfl hkind⟩
    | identifier parts =>
      obtain rfl := Except.ok.inj h
      have hatomic := atomic_partsText renderer hspelled.1 hspelled.2
      exact ⟨_, .of_atomic hatomic .identifier, Nat.le_refl 4, fun _ _ => hatomic⟩
    | number value =>
      obtain rfl := Except.ok.inj h
      have hvalue : IsNumber value.toList := hspelled
      have hatomic := atomic_number hvalue renderer.dialect
      exact ⟨_, .of_atomic hatomic .number, Nat.le_refl 4, fun _ _ => hatomic⟩
    | grouped expr =>
      have hexprBelow := hbelow expr (by simp [children])
      simp only [nodeText, bind_eq_ok, pure_eq_ok] at h
      obtain ⟨shown, hshown, rfl⟩ := h
      have hatomic :
          Atomic renderer.dialect.nameQuote ("(" ++ shown ++ ")").toList (.group shown.toList) := by
        simpa using atomic_group (hbalanced hexprBelow _ hshown)
      exact ⟨_, .of_atomic hatomic (.grouped (hmeaning hexprBelow hshown)), Nat.le_refl 4,
        fun _ _ => hatomic⟩
    | call callee args =>
      simp only [nodeText, bind_eq_ok, pure_eq_ok] at h
      obtain ⟨listed, hlisted, rfl⟩ := h
      obtain ⟨parts, hparts, rfl⟩ := listText_eq_ok.mp hlisted
      have hinside : Balanced (commas (parts.map String.toList)) :=
        balanced_commas (List.forall_mem_map.mpr
          (forall_mem_of_forall₂ hparts fun arg harg => hbalanced (hbelow arg harg)))
      obtain ⟨hne, hcallee⟩ := isTokenChar_targetName hcalls hspelled
      have hatomic := atomic_call (isQuote_nameQuote renderer.dialect) hne hcallee hinside
      have htext : (renderer.targetName callee ++ "(" ++ String.intercalate ", " parts ++ ")").toList =
          (renderer.targetName callee).toList ++ '(' :: (commas (parts.map String.toList) ++ [')']) := by
        simp [commas]
      rw [htext]
      have hsaid := forall₂_of_mapM (fun arg harg _ => hmeaning (hbelow arg harg)) hparts
      exact ⟨_, .of_atomic hatomic (.call hsaid), Nat.le_refl 4, fun _ _ => hatomic⟩

end Target

open Node Target

/-- **The text of an arithmetic tree of any shape is read, by the operator grammar of the target, as an
expression that stands for the tree.** -/
theorem read_render {renderer : Renderer} {node : Node} {text : String}
    (hcalls : renderer.CallsNames) (hnode : node.Everywhere Spelled) (harithmetic : node.IsArithmetic)
    (hrender : renderer.render node = .ok text) :
    ∃ expr, Target.read renderer.dialect text.toList = some expr ∧ Means renderer expr node := by
  obtain ⟨expr, hreading, -⟩ :=
    readsBack_renderAt hcalls hnode harithmetic renderer.maxDepth text hrender
  exact ⟨expr, read_of_spells hreading.spells hreading.ordered, hreading.means⟩

/-- A product with a whole division on its right, which stands in parentheses of its own. -/
theorem read_render_product :
    (Renderer.ofDialect .sqlite).render
        (arithmetic (number "2") .mul (arithmetic (number "3") .intDiv (number "1"))) =
      .ok "2 * (CAST(3 / 1 AS INTEGER))" ∧
    ∃ expr, Target.read .sqlite "2 * (CAST(3 / 1 AS INTEGER))".toList = some expr ∧
      Means (Renderer.ofDialect .sqlite) expr
        (arithmetic (number "2") .mul (arithmetic (number "3") .intDiv (number "1"))) := by
  have hnumber (text : String) (hne : text.toList ≠ [])
      (hdigits : text.toList.all Char.isDigit = true) :
      (number text).Everywhere Spelled :=
    everywhere_iff.mpr ⟨.whole hne hdigits, by simp [number, children]⟩
  have htwo := hnumber "2" (by decide) (by decide)
  have hthree := hnumber "3" (by decide) (by decide)
  have hone := hnumber "1" (by decide) (by decide)
  have hdivision : Everywhere Spelled (arithmetic (number "3") .intDiv (number "1")) :=
    everywhere_iff.mpr ⟨trivial, by simp [children, hthree, hone]⟩
  have hproduct : Everywhere Spelled
      (arithmetic (number "2") .mul (arithmetic (number "3") .intDiv (number "1"))) :=
    everywhere_iff.mpr ⟨trivial, by simp [children, htwo, hdivision]⟩
  have hrender : (Renderer.ofDialect .sqlite).render
      (arithmetic (number "2") .mul (arithmetic (number "3") .intDiv (number "1"))) =
      .ok "2 * (CAST(3 / 1 AS INTEGER))" := rfl
  exact ⟨hrender, read_render (callsNames_ofDialect .sqlite) hproduct
    (.operation (.number "2") (.operation (.number "3") (.number "1"))) hrender⟩

end JetSql
