/-
Rendering what the source and a target write alike.

A tree is portable if each of its nodes is written in the target as it is in the source.

* **`parse_of_render`:** a portable tree that was parsed is parsed again from its text for
  PostgreSQL, at the same limit.
-/

import JetSql.Proofs.ReadBack.Nesting
import JetSql.Proofs.Renderer.Success
import JetSql.Proofs.Tree.Everywhere

namespace JetSql

open Grammar Node

namespace Renderer

/-! ### Portable trees -/

/-- Whether a literal is written in the target as it is in the source. -/
def keepsLiteral : Literal → Bool
  | .string _ quote => quote != '"'
  | .date _ => false
  | .number _ | .bool _ | .null => true

/-- Whether a node is written in the target as it is in the source, apart from the nodes below it. -/
def keeps (renderer : Renderer) : Node → Bool
  | .query clauses => clauses.top.isNone
  | .selectItem _ asName | .tableRef _ asName => asName.all fun part => !part.bracketed
  | .identifier names | .qualifiedStar names => names.all fun part => !part.bracketed
  | .comparison _ op right => !isPattern op right
  | .arithmetic _ op _ => op.isStandard
  | .negate expr => expr.kind != .negate
  | .call callee _ => renderer.targetName callee == callee
  | .literal value => keepsLiteral value
  | .conditional .. | .crosstab .. => false
  | .join .. | .orderItem .. | .logical .. | .not _ | .operator _ | .isNull .. | .inList ..
  | .between .. | .grouped _ | .star => true

/-- A tree without anything that the target writes differently. -/
def Portable (renderer : Renderer) : Node → Prop :=
  Everywhere fun node => renderer.keeps node = true

variable {renderer : Renderer} {visit : Node → Except Error String} {node : Node}
  {nodes : List Node} {text keyword opening : String}

/-! ### Names and lists -/

theorem toList_partText {part : Part} (h : part.bracketed = false) :
    (renderer.partText part).toList = part.source := by
  obtain ⟨name, _⟩ := part
  subst h
  rfl

theorem toList_partsText {names : List Part} (h : names.all (fun part => !part.bracketed) = true) :
    (renderer.partsText names).toList = partsSource names := by
  have hnames : (names.map renderer.partText).map String.toList = names.map Part.source := by
    rw [List.map_map]
    refine List.map_congr_left fun part hpart => toList_partText ?_
    simpa using List.all_eq_true.mp h part hpart
  rw [partsText, String.toList_intercalate, hnames]
  rfl

theorem toList_aliasText {asName : Option Part}
    (h : asName.all (fun part => !part.bracketed) = true) :
    (renderer.aliasText asName).toList = aliasSource asName := by
  cases asName with
  | none => rfl
  | some part => rw [aliasText, String.toList_append, toList_partText (by simpa using h), aliasSource]

/-- The text of a node is its source text. -/
def Prints (visit : Node → Except Error String) (node : Node) : Prop :=
  ∀ text, visit node = .ok text → text.toList = node.source

theorem toList_listText (hprints : ∀ node ∈ nodes, Prints visit node)
    (h : listText visit nodes = .ok text) : text.toList = commas (nodes.map source) := by
  obtain ⟨texts, htexts, rfl⟩ := listText_eq_ok.mp h
  have hmap : texts.map String.toList = nodes.map source := by
    clear h
    induction htexts with
    | nil => rfl
    | cons hnode _ ih =>
      rw [List.map_cons, List.map_cons, hprints _ List.mem_cons_self _ hnode,
        ih fun node hnode => hprints node (List.mem_cons_of_mem _ hnode)]
  rw [String.toList_intercalate, hmap]
  rfl

theorem toList_clauseText {clause : Option Node} (hkeyword : keyword.toList = opening.toList ++ [' '])
    (hprints : ∀ node ∈ clause.toList, Prints visit node)
    (h : clauseText visit keyword clause = .ok text) : text.toList = clauseSource opening clause := by
  obtain ⟨rfl, rfl⟩ | ⟨node, shown, rfl, hshown, rfl⟩ := clauseText_eq_ok.mp h
  · rfl
  · rw [String.toList_append, hkeyword, hprints node (by simp) _ hshown, List.append_assoc]
    rfl

theorem toList_clauseListText (hkeyword : keyword.toList = opening.toList ++ [' '])
    (hprints : ∀ node ∈ nodes, Prints visit node)
    (h : clauseListText visit keyword nodes = .ok text) :
    text.toList = listSource opening (nodes.map source) := by
  obtain ⟨rfl, rfl⟩ | ⟨hne, shown, hshown, rfl⟩ := clauseListText_eq_ok.mp h
  · rfl
  · rw [String.toList_append, hkeyword, toList_listText hprints hshown, List.append_assoc, listSource,
      if_neg (by simpa using hne)]
    rfl

/-! ### Trees -/

theorem toList_of_keeps_literal {value : Literal} (hdialect : renderer.dialect = .postgres)
    (hvalue : value.Formed) (hkeeps : renderer.keeps (.literal value) = true)
    (h : renderer.literalText value = .ok text) : text.toList = value.source := by
  cases value with
  | string value quote =>
    obtain rfl : quote = '\'' := hvalue.1.resolve_right (by simpa [keeps, keepsLiteral] using hkeeps)
    obtain rfl := Except.ok.inj h
    simp [stringText, stringBody, Literal.source]
  | number text' =>
    obtain rfl := Except.ok.inj h
    rfl
  | bool value =>
    obtain rfl := Except.ok.inj h
    rw [hdialect]
    cases value <;> rfl
  | null =>
    obtain rfl := Except.ok.inj h
    rfl
  | date => cases hkeeps

/-- An operand stands without parentheses if it ranks as its place allows. -/
theorem operandText_of_precedence_lt {parent : ArithOp} {onLeft : Bool} {operand : Node}
    (hparent : parent.isStandard = true) (hkeeps : renderer.keeps operand = true)
    (hrank : ∀ left op right, operand = .arithmetic left op right →
      parent.precedence < op.precedence + if onLeft then 1 else 0) :
    operandText parent onLeft operand text = text := by
  cases operand with
  | arithmetic left op right =>
    have hop : op.isStandard = true := hkeeps
    have hrank := hrank left op right rfl
    rw [operandText, if_neg]
    rw [needsParens, hparent, hop]
    cases onLeft with
    | true =>
      simp only [if_true] at hrank
      simp
      omega
    | false =>
      simp only [Bool.false_eq_true, if_false] at hrank
      simp
      omega
  | _ => rfl

theorem toList_arithmetic {left right : Node} {op : ArithOp} {leftText rightText : String}
    (hop : op.isStandard = true) (hleft : leftText.toList = left.source)
    (hright : rightText.toList = right.source) :
    (renderer.arithmeticText op leftText rightText).toList = (arithmetic left op right).source := by
  rw [source_arithmetic, ← hleft, ← hright]
  cases op with
  | intDiv | mod | concat => cases hop
  | add | sub | mul | div => simp [arithmeticText, Link.source_arithmetic]

/-- A minus sign stands before its operand, where that is no sign and no arithmetic. -/
theorem toList_negateText {expr : Node} (hformed : 10 ≤ expr.spine)
    (hkeeps : renderer.keeps (.negate expr) = true) (htext : text.toList = expr.source) :
    (negateText expr text).toList = (negate expr).source := by
  rw [source_negate, ← htext]
  cases expr with
  | arithmetic left op right =>
    rw [spine] at hformed
    have := (Link.arithmetic op).precedence_lt
    rw [Link.precedence] at this
    omega
  | negate expr => simp [keeps, kind] at hkeeps
  | _ => simp [negateText, signSource]

/-- Where the left operand is no conditional and the right one no pattern, both are shown. -/
theorem toList_comparisonText {left right : Node} {op : CompareOp}
    (hleft : renderer.keeps left = true) (hkeeps : renderer.keeps (compare left op right) = true)
    (hvisitop : Prints visit (.operator op)) (hvisitleft : Prints visit left)
    (hvisitright : Prints visit right)
    (h : comparisonText visit left (.operator op) right = .ok text) :
    text.toList = (compare left op right).source := by
  obtain ⟨_, _, _, rfl, -⟩ |
      ⟨-, leftText, opText, rightText, hleftText, hopText, hrightText, rfl⟩ :=
    cases_of_comparisonText h
  · simp [keeps] at hleft
  · obtain ⟨-, hrightText⟩ | ⟨_, _, _, hsymbol, rfl, hpattern, -⟩ := hrightText
    · have hop : opText.toList = op.symbol.toList := hvisitop _ hopText
      simp [source_compare, Link.source_compare, hop, hvisitleft _ hleftText,
        hvisitright _ hrightText]
    · obtain rfl := Node.operator.inj hsymbol
      simp [keeps, isPattern, Node.compare, hpattern] at hkeeps

/-- **One node is shown as it is written, if those below it are.** -/
theorem prints_nodeText {role : Role} (hdialect : renderer.dialect = .postgres)
    (hformed : Formed role node) (hkeeps : renderer.keeps node = true)
    (hkept : ∀ child ∈ node.children, renderer.keeps child = true)
    (hprints : ∀ child ∈ node.children, Prints visit child) :
    Prints (renderer.nodeText visit) node := by
  intro text h
  induction hformed with
  | argument _ ih | factor _ ih | query _ ih => exact ih hkeeps hkept hprints h
  | conditional | crosstab => simp [keeps] at hkeeps
  | @logical left right =>
    simp only [nodeText, bind_eq_ok, pure_eq_ok] at h
    obtain ⟨leftText, hleft, rightText, hright, rfl⟩ := h
    have hleft := hprints left (by simp [children]) _ hleft
    have hright := hprints right (by simp [children]) _ hright
    simp [source_logical, Link.source_logical, hleft, hright]
  | @compare left right op =>
    exact toList_comparisonText (hkept left (by simp [children, Node.compare])) hkeeps
      (hprints (.operator op) (by simp [children, Node.compare]))
      (hprints left (by simp [children, Node.compare]))
      (hprints right (by simp [children, Node.compare])) h
  | @arithmetic left right op _ htail _ hspine =>
    have hop : op.isStandard = true := hkeeps
    have hconcat : op ≠ .concat := by
      rintro rfl
      cases hop
    simp only [nodeText, bind_eq_ok, pure_eq_ok] at h
    obtain ⟨leftText, hleft, rightText, hright, rfl⟩ := h
    rw [operandText_of_precedence_lt hop (hkept left (by simp [children])),
      operandText_of_precedence_lt hop (hkept right (by simp [children]))]
    · exact toList_arithmetic hop (hprints left (by simp [children]) _ hleft)
        (hprints right (by simp [children]) _ hright)
    · rintro _ _ _ rfl
      exact (Nat.lt_min.mp hspine).1
    · rintro _ _ _ rfl
      exact (Nat.lt_min.mp htail).1
  | @isNull left negated =>
    simp only [nodeText, bind_eq_ok, pure_eq_ok] at h
    obtain ⟨shown, hshown, rfl⟩ := h
    have hshown := hprints left (by simp [children]) _ hshown
    cases negated <;> simp [source_isNull, Link.source_isNull, notText, hshown]
  | @inList left list negated =>
    simp only [nodeText, bind_eq_ok, pure_eq_ok] at h
    obtain ⟨shown, hshown, listed, hlisted, rfl⟩ := h
    have hshown := hprints left (by simp [children]) _ hshown
    have hlisted :=
      toList_listText (fun item hitem => hprints item (by simp [children, hitem])) hlisted
    cases negated <;> simp [source_inList, Link.source_inList, notText, hshown, hlisted]
  | @between left low high negated =>
    simp only [nodeText, bind_eq_ok, pure_eq_ok] at h
    obtain ⟨shown, hshown, lowText, hlow, highText, hhigh, rfl⟩ := h
    have hshown := hprints left (by simp [children]) _ hshown
    have hlow := hprints low (by simp [children]) _ hlow
    have hhigh := hprints high (by simp [children]) _ hhigh
    cases negated <;> simp [source_between, Link.source_between, notText, hshown, hlow, hhigh]
  | @not expr =>
    simp only [nodeText, bind_eq_ok, pure_eq_ok] at h
    obtain ⟨shown, hshown, rfl⟩ := h
    rw [source_not, String.toList_append, hprints expr (by simp [children]) _ hshown]
  | @negate expr _ hspine =>
    simp only [nodeText, bind_eq_ok, pure_eq_ok] at h
    obtain ⟨shown, hshown, rfl⟩ := h
    exact toList_negateText hspine hkeeps (hprints expr (by simp [children]) _ hshown)
  | @grouped expr | @groupedTables expr =>
    simp only [nodeText, bind_eq_ok, pure_eq_ok] at h
    obtain ⟨shown, hshown, rfl⟩ := h
    simp [source_grouped, hprints expr (by simp [children]) _ hshown]
  | @call callee args =>
    have hcallee : renderer.targetName callee = callee := by simpa [keeps] using hkeeps
    simp only [nodeText, bind_eq_ok, pure_eq_ok] at h
    obtain ⟨listed, hlisted, rfl⟩ := h
    have hlisted : listed.toList = commas (args.map source) := toList_listText hprints hlisted
    simp [source_call, hcallee, hlisted]
  | literal hvalue => exact toList_of_keeps_literal hdialect hvalue hkeeps h
  | @identifier names => rw [← Except.ok.inj h, source_identifier, toList_partsText hkeeps]
  | star | itemStar =>
    rw [← Except.ok.inj h]
    rfl
  | @tableRef names asName | @selectItem expr asName =>
    simp only [nodeText, bind_eq_ok, pure_eq_ok] at h
    obtain ⟨shown, hshown, rfl⟩ := h
    rw [String.toList_append, toList_aliasText hkeeps, hprints _ (by simp [children]) _ hshown]
    rfl
  | @join left right on =>
    simp only [nodeText, bind_eq_ok, pure_eq_ok] at h
    obtain ⟨leftText, hleft, rightText, hright, onText, hon, rfl⟩ := h
    have hleft := hprints left (by simp [children]) _ hleft
    have hright := hprints right (by simp [children]) _ hright
    have hon := hprints on (by simp [children]) _ hon
    simp [source_join, hleft, hright, hon]
  | @qualifiedStar names =>
    rw [← Except.ok.inj h, String.toList_append, source_qualifiedStar, toList_partsText hkeeps]
    rfl
  | @orderItem expr order =>
    have hexpr := hprints expr (by simp [children])
    cases order with
    | none => rw [source_orderItem, orderSource, List.append_nil, hexpr _ h]
    | some order =>
      simp only [nodeText, bind_eq_ok, pure_eq_ok] at h
      obtain ⟨shown, hshown, rfl⟩ := h
      simp [source_orderItem, orderSource, hexpr _ hshown]
  | @select clauses =>
    have htop : clauses.top = none := Option.isNone_iff_eq_none.mp hkeeps
    have hbelow : ∀ child ∈ clauses.nodes, Prints visit child := hprints
    simp only [Clauses.nodes, List.forall_mem_append] at hbelow
    obtain ⟨⟨⟨⟨⟨hitems, htables⟩, hcondition⟩, hgroups⟩, hhaving⟩, horders⟩ := hbelow
    simp only [nodeText, selectText, bind_eq_ok, pure_eq_ok] at h
    obtain ⟨items, hi, tables, ht, condition, hc, groups, hg, having, hh, orders, ho, rfl⟩ := h
    have hi := toList_listText hitems hi
    have ht : tables.toList = listSource " FROM" _ := toList_clauseListText rfl htables ht
    have hc : condition.toList = clauseSource " WHERE" _ := toList_clauseText rfl hcondition hc
    have hg : groups.toList = listSource " GROUP BY" _ := toList_clauseListText rfl hgroups hg
    have hh : having.toList = clauseSource " HAVING" _ := toList_clauseText rfl hhaving hh
    have ho : orders.toList = listSource " ORDER BY" _ := toList_clauseListText rfl horders ho
    rw [source_query, htop]
    simp only [String.toList_append, hi, ht, hc, hg, hh, ho, topSource]
    cases clauses.distinct <;> simp

/-- **The text of a portable tree is its source text.** -/
theorem prints_renderAt {role : Role} (hdialect : renderer.dialect = .postgres)
    (hformed : Formed role node) (hportable : renderer.Portable node) (levels : Nat) :
    Prints (renderer.renderAt levels) node := by
  induction levels generalizing node role with
  | zero => exact fun _ h => nomatch h
  | succ levels ih =>
    obtain ⟨hkeeps, hbelow⟩ := everywhere_iff.mp hportable
    refine prints_nodeText hdialect hformed hkeeps
      (fun child hchild => (everywhere_iff.mp (hbelow child hchild)).1) fun child hchild => ?_
    obtain ⟨_, hformed⟩ | ⟨op, rfl⟩ := formed_of_mem_children hformed hchild
    · exact ih hformed (hbelow child hchild)
    · intro text h
      obtain ⟨_, rfl, h⟩ := renderAt_eq_ok.mp h
      rw [← Except.ok.inj h]
      rfl

end Renderer

open Renderer

/-- **A portable tree that was parsed is parsed again from its text for PostgreSQL**, at the same
limit and whatever the limit of the renderer is. -/
theorem parse_of_render {renderer : Renderer} {source text : String} {limit : Nat} {node : Node}
    (hdialect : renderer.dialect = .postgres) (hparse : parse source limit = .ok node)
    (hportable : renderer.Portable node) (hrender : renderer.render node = .ok text) :
    parse text limit = .ok node := by
  have hread := read_of_parse hparse
  have hformed := formed_of_read hread
  have htext : text = String.ofList node.source := by
    rw [← String.toList_inj, String.toList_ofList]
    exact prints_renderAt hdialect hformed hportable renderer.maxDepth text hrender
  rw [htext]
  exact parse_source hformed (levels_le_of_read hread)

/-- A difference that takes away another one. -/
def difference : Node :=
  arithmetic (number "2") .sub (grouped (arithmetic (number "1") .sub (number "1")))

/-- The parentheses around a difference that is taken away are kept. -/
theorem parse_of_render_difference :
    parse "SELECT 2 - (1 - 1)" 4 = .ok (selecting difference) ∧
      (ofDialect .postgres).Portable (selecting difference) ∧
      (ofDialect .postgres).render (selecting difference) = .ok "SELECT 2 - (1 - 1)" ∧
      parse "SELECT 2 - (1 - 1)" 4 = .ok (selecting difference) := by
  have hone : Formed .expr (number "1") := .literal (.whole (by decide) (by decide))
  have htwo : Formed .expr (number "2") := .literal (.whole (by decide) (by decide))
  have hformed : Formed .expr difference :=
    .arithmetic htwo (by decide) (.grouped (.arithmetic hone (by decide) hone (by decide))) (by decide)
  have hleaf (text : String) : (number text).levels ≤ 0 := levels_leaf rfl rfl rfl
  have hlevels : difference.levels ≤ 4 - 1 := by
    have hinner : (arithmetic (number "1") .sub (number "1")).levels ≤ 1 :=
      levels_le_iff.mpr ⟨by decide, List.forall_mem_singleton.mpr (Nat.le_succ_of_le (hleaf "1")),
        List.forall_mem_singleton.mpr (Nat.add_le_add_left (hleaf "1") 1)⟩
    have hgrouped : (grouped (arithmetic (number "1") .sub (number "1"))).levels ≤ 2 :=
      levels_le_of_children rfl (by decide) (List.forall_mem_singleton.mpr hinner)
    exact levels_le_iff.mpr ⟨by decide,
      List.forall_mem_singleton.mpr (Nat.le_trans (hleaf "2") (Nat.zero_le _)),
      List.forall_mem_singleton.mpr (Nat.add_le_add_left hgrouped 1)⟩
  have hsource : String.ofList (selecting difference).source = "SELECT 2 - (1 - 1)" := by
    rw [← String.toList_inj, String.toList_ofList]
    rfl
  have hparse := hsource ▸ parse_selecting hformed hlevels
  have hkept (text : String) : (ofDialect .postgres).Portable (number text) :=
    everywhere_iff.mpr ⟨rfl, by simp [number, children]⟩
  have hportable : (ofDialect .postgres).Portable (selecting difference) := by
    refine everywhere_iff.mpr ⟨rfl, List.forall_mem_singleton.mpr (everywhere_iff.mpr ⟨rfl,
      List.forall_mem_singleton.mpr (everywhere_iff.mpr ⟨rfl, ?_⟩)⟩)⟩
    refine List.forall_mem_cons.mpr ⟨hkept "2", List.forall_mem_singleton.mpr (everywhere_iff.mpr
      ⟨rfl, List.forall_mem_singleton.mpr (everywhere_iff.mpr ⟨rfl, ?_⟩)⟩)⟩
    exact List.forall_mem_cons.mpr ⟨hkept "1", List.forall_mem_singleton.mpr (hkept "1")⟩
  have hrender : (ofDialect .postgres).render (selecting difference) =
    .ok "SELECT 2 - (1 - 1)" := rfl
  exact ⟨hparse, hportable, hrender, parse_of_render rfl hparse hportable hrender⟩

end JetSql
