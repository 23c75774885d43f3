/-
The texts of trees, as they are put together.

* **`composed_nodeText`:** the text of one node is composed of those of the nodes below it.
* **`composed_renderAt`:** the text of a tree is composed of the quotations of the tree, and minus
  signs meet in it exactly if signs of the tree do.
-/

import JetSql.Proofs.Target.Composition

namespace JetSql.Target

open Node Renderer Text

variable {dialect : Dialect} {renderer : Renderer} {visit : Node → Except Error String}
  {node : Node} {nodes : List Node} {left right keyword text : String} {found found' : List Quotation}
  {meets meets' : Bool}

/-! ### Operations -/

theorem composed_call {callee inside : List Char} (hcallee : callee.all isTokenChar = true)
    (h : Composed dialect inside found meets) :
    Composed dialect (callee ++ '(' :: (inside ++ [')'])) found meets :=
  h.parens.after_plain (all_isSkipped_of_isTokenChar hcallee)

theorem composed_coalesced {text : List Char} (h : Composed dialect text found meets) :
    Composed dialect (coalesced text) (found ++ [⟨'\'', []⟩]) meets := by
  have hinside := h.between (.inl rfl : Parting ", ".toList) composed_emptyText
  rw [coalesced_eq]
  simpa using composed_call (by decide : "COALESCE".toList.all isTokenChar = true) hinside

/-- The texts that a chain of `&` joins, with the empty texts that the dialect takes. -/
theorem composed_concat {parts : List String}
    (h : List.Forall₂ (fun text node => Composed dialect text (quotations dialect node)
      (signsMeet dialect node)) (parts.map String.toList) nodes) :
    Composed dialect (dialect.concat parts).toList
      (dialect.joinOpening ++ nodes.flatMap fun node => quotations dialect node ++ dialect.joinClosing)
      (nodes.any (signsMeet dialect)) := by
  have hcommas : Composed dialect (commas (parts.map String.toList))
      (nodes.flatMap (quotations dialect)) (nodes.any (signsMeet dialect)) :=
    composed_intercalate (.inl rfl) h
  cases dialect with
  | postgres =>
    rw [toList_concat_postgres]
    simpa [Dialect.joinOpening, Dialect.joinClosing] using
      composed_call (by decide : "CONCAT".toList.all isTokenChar = true) hcommas
  | mysql =>
    have hinside := composed_emptyText.between (.inl rfl : Parting ", ".toList) hcommas
    rw [toList_concat_mysql]
    simpa [Dialect.joinOpening, Dialect.joinClosing] using
      composed_call (by decide : "CONCAT_WS".toList.all isTokenChar = true) hinside
  | sqlite =>
    have hparts : List.Forall₂ (fun text node => Composed .sqlite text
        (quotations .sqlite node ++ [⟨'\'', []⟩]) (signsMeet .sqlite node))
        ((parts.map String.toList).map coalesced) nodes :=
      List.forall₂_map_left_iff.mpr (h.imp fun _ _ => composed_coalesced)
    rw [toList_concat_sqlite]
    simpa [Dialect.joinOpening, Dialect.joinClosing, Function.comp_def] using
      composed_intercalate (.inl rfl : Parting " || ".toList) hparts

theorem composed_parenthesized (h : Composed dialect text.toList found meets) :
    Composed dialect ("(" ++ text ++ ")").toList found meets := by
  simpa using h.parens

theorem composed_operandText {parent : ArithOp} {onLeft : Bool}
    (h : Composed dialect text.toList found meets) :
    Composed dialect (operandText parent onLeft node text).toList found meets := by
  rw [operandText_eq]
  split
  · exact composed_parenthesized h
  · exact h

/-- Two texts with a mark between them. -/
theorem composed_infixed {mark : String} (hleft : Composed dialect left.toList found meets)
    (hmark : Parting mark.toList) (hright : Composed dialect right.toList found' meets') :
    Composed dialect (left ++ mark ++ right).toList (found ++ found') (meets || meets') := by
  simpa using hleft.between hmark hright

theorem composed_intDiv (hleft : Composed dialect left.toList found meets)
    (hright : Composed dialect right.toList found' meets') :
    Composed dialect (dialect.intDiv left right).toList (found ++ found') (meets || meets') := by
  cases dialect with
  | postgres =>
    have hinside := hleft.between (.inl rfl : Parting ", ".toList) hright
    rw [toList_intDiv_postgres, List.append_assoc left.toList]
    exact composed_call (by decide) hinside
  | mysql => exact composed_infixed hleft (.inl rfl : Parting " DIV ".toList) hright
  | sqlite =>
    have hslash : Parting " / ".toList := .inr ⟨'/', rfl, rfl⟩
    have hinside := (hleft.between hslash hright).append_mark (rfl : isMark " AS INTEGER".toList = true)
    simpa [Dialect.intDiv] using
      composed_call (by decide : "CAST".toList.all isTokenChar = true) hinside

/-- The signs of the operators stand between blanks. -/
theorem parting_symbol (op : ArithOp) : Parting (" " ++ op.symbol ++ " ").toList := by
  cases op with
  | sub => exact .inr ⟨'-', rfl, rfl⟩
  | div => exact .inr ⟨'/', rfl, rfl⟩
  | _ => exact .inl rfl

theorem composed_arithmeticText {op : ArithOp}
    (hleft : Composed renderer.dialect left.toList found meets)
    (hright : Composed renderer.dialect right.toList found' meets') :
    Composed renderer.dialect (renderer.arithmeticText op left right).toList (found ++ found')
      (meets || meets') := by
  unfold arithmeticText
  split
  · exact composed_intDiv hleft hright
  · exact composed_infixed hleft (.inl rfl) hright
  · simpa [String.append_assoc] using composed_infixed hleft (parting_symbol op) hright

theorem composed_negateText (h : Composed dialect text.toList found meets)
    (hbegins : Begins text.toList (node.signed dialect)) :
    Composed dialect (negateText node text).toList found
      ((negate node).doublesSign dialect || meets) := by
  have hparens : Composed dialect ("-(" ++ text ++ ")").toList found (false || meets) := by
    have htext : ("-(" ++ text ++ ")").toList = '-' :: ("(" ++ text ++ ")").toList := by simp
    rw [htext]
    exact (composed_parenthesized h).minus (by simp [Begins])
  fun_cases negateText node text with
  | case1 => exact hparens
  | case2 => exact hparens
  | case3 node harithmetic hnegate =>
    rw [String.toList_append, doublesSign]
    · exact h.minus hbegins
    · exact harithmetic
    · exact hnegate

/-! ### Clauses and conditions -/

/-- The text of a node is composed of the quotations of the node, and minus signs meet in it exactly
if signs of the node do. -/
def Composes (renderer : Renderer) (visit : Node → Except Error String) (node : Node) : Prop :=
  ∀ text, visit node = .ok text → Composed renderer.dialect text.toList
    (node.quotations renderer.dialect) (node.signsMeet renderer.dialect)

theorem composed_listText (hnodes : ∀ node ∈ nodes, Composes renderer visit node)
    (h : listText visit nodes = .ok text) :
    Composed renderer.dialect text.toList (nodes.flatMap (quotations renderer.dialect))
      (nodes.any (signsMeet renderer.dialect)) := by
  obtain ⟨texts, htexts, rfl⟩ := listText_eq_ok.mp h
  rw [String.toList_intercalate]
  exact composed_intercalate (.inl rfl) (forall₂_of_mapM hnodes htexts)

/-- A clause after a text. -/
theorem composed_append_clauseText {clause : Option Node}
    (hbefore : Composed renderer.dialect left.toList found meets)
    (hkeyword : isMark keyword.toList = true)
    (hnodes : ∀ node ∈ clause.toList, Composes renderer visit node)
    (h : clauseText visit keyword clause = .ok text) :
    Composed renderer.dialect (left ++ text).toList
      (found ++ clause.toList.flatMap (quotations renderer.dialect))
      (meets || clause.toList.any (signsMeet renderer.dialect)) := by
  obtain ⟨rfl, rfl⟩ | ⟨node, shown, rfl, hshown, rfl⟩ := clauseText_eq_ok.mp h
  · simpa using hbefore
  · simpa using hbefore.between (.inl hkeyword) (hnodes node (by simp) _ hshown)

/-- A clause that lists nodes after a text. -/
theorem composed_append_clauseListText (hbefore : Composed renderer.dialect left.toList found meets)
    (hkeyword : isMark keyword.toList = true)
    (hnodes : ∀ node ∈ nodes, Composes renderer visit node)
    (h : clauseListText visit keyword nodes = .ok text) :
    Composed renderer.dialect (left ++ text).toList
      (found ++ nodes.flatMap (quotations renderer.dialect))
      (meets || nodes.any (signsMeet renderer.dialect)) := by
  obtain ⟨rfl, rfl⟩ | ⟨-, shown, hshown, rfl⟩ := clauseListText_eq_ok.mp h
  · simpa using hbefore
  · simpa using hbefore.between (.inl hkeyword) (composed_listText hnodes hshown)

theorem composed_selectText {clauses : Clauses Node}
    (hnodes : ∀ node ∈ clauses.nodes, Composes renderer visit node)
    (h : renderer.selectText visit clauses = .ok text) :
    Composed renderer.dialect text.toList (clauses.nodes.flatMap (quotations renderer.dialect))
      (clauses.nodes.any (signsMeet renderer.dialect)) := by
  simp only [Clauses.nodes, List.forall_mem_append] at hnodes
  obtain ⟨⟨⟨⟨⟨hitems, htables⟩, hcondition⟩, hgroups⟩, hhaving⟩, horders⟩ := hnodes
  simp only [selectText, bind_eq_ok, pure_eq_ok] at h
  obtain ⟨items, hi, tables, ht, condition, hc, groups, hg, having, hh, orders, ho, rfl⟩ := h
  have hopening :
      (if clauses.distinct then "SELECT DISTINCT " else "SELECT ").toList.all isSkipped = true := by
    split <;> decide
  have hitems := (composed_listText hitems hi).after_plain hopening
  rw [← String.toList_append] at hitems
  have htables := composed_append_clauseListText hitems rfl htables ht
  have hcondition := composed_append_clauseText htables rfl hcondition hc
  have hgroups := composed_append_clauseListText hcondition rfl hgroups hg
  have hhaving := composed_append_clauseText hgroups rfl hhaving hh
  have horders := composed_append_clauseListText hhaving rfl horders ho
  simp only [Clauses.nodes, List.flatMap_append, List.any_append]
  cases clauses.top with
  | none => simpa using horders
  | some rows =>
    have hrows : (toString rows).toList.all isTokenChar = true :=
      List.all_eq_true.mpr fun c hc =>
        isTokenChar_of_isDigit (List.all_eq_true.mp (isDigit_toString rows) c hc)
    have hlimit : isMark (" LIMIT ".toList ++ (toString rows).toList) = true :=
      isMark_append rfl (all_isSkipped_of_isTokenChar hrows)
    simpa [Dialect.limit] using horders.append_mark hlimit

theorem composed_conditionalText {condition thenValue elseValue : Node}
    (hnodes : ∀ node ∈ [condition, thenValue, elseValue], Composes renderer visit node)
    (h : conditionalText visit condition thenValue elseValue = .ok text) :
    Composed renderer.dialect text.toList
      ([condition, thenValue, elseValue].flatMap (quotations renderer.dialect))
      ([condition, thenValue, elseValue].any (signsMeet renderer.dialect)) := by
  obtain ⟨shown, hshown, thenText, hthen, elseText, helse, rfl⟩ := conditionalText_eq_ok.mp h
  have hwhen := (hnodes condition (by simp) _ hshown).after_plain
    (by decide : "CASE WHEN ".toList.all isSkipped = true)
  have hbranches := (hnodes thenValue (by simp) _ hthen).between
    (.inl rfl : Parting " ELSE ".toList) (hnodes elseValue (by simp) _ helse)
  have hinside := (hwhen.between (.inl rfl : Parting " THEN ".toList) hbranches).append_mark
    (rfl : isMark " END".toList = true)
  simpa using hinside.parens

/-! ### Nodes -/

/-- What a node is composed of for which other nodes are rendered, and that is no chain of `&`. -/
theorem composed_of_shown {chars : List Char} (hchain : node.isChain = false)
    (hsign : node.doublesSign dialect = false)
    (h : Composed dialect chars
      (node.shown.flatMap (quotations dialect) ++ node.ownQuotations dialect)
      (node.shown.any (signsMeet dialect))) :
    Composed dialect chars (node.quotations dialect) (node.signsMeet dialect) := by
  rwa [quotations_eq dialect hchain, signsMeet_of_shown hsign]

/-- What a node is composed of for which the nodes below it are rendered, if it quotes nothing. -/
theorem composed_of_children {chars : List Char} (hown : node.ownQuotations dialect = [])
    (hshown : node.shown = node.children) (hchain : node.isChain = false)
    (hsign : node.doublesSign dialect = false)
    (h : Composed dialect chars (node.children.flatMap (quotations dialect))
      (node.children.any (signsMeet dialect))) :
    Composed dialect chars (node.quotations dialect) (node.signsMeet dialect) := by
  rwa [quotations_of_children hown hshown hchain, signsMeet_of_shown hsign, hshown]

/-- A comparison shows its operands with the operator between them, or the conditional on its left. -/
theorem composed_comparisonText {left op right : Node}
    (hshown : ∀ node ∈ (comparison left op right).shown, Composes renderer visit node)
    (hspelled : right.Spelled) (h : comparisonText visit left op right = .ok text) :
    Composed renderer.dialect text.toList ((comparison left op right).quotations renderer.dialect)
      ((comparison left op right).signsMeet renderer.dialect) := by
  have hblank : Parting " ".toList := .inl rfl
  refine composed_of_shown rfl rfl ?_
  obtain ⟨condition, thenValue, elseValue, rfl, h⟩ |
    ⟨hleft, leftText, opText, rightText, hleftText, hopText, hrightText, rfl⟩ :=
      cases_of_comparisonText h
  · simpa [shown, ownQuotations] using composed_conditionalText hshown h
  · obtain ⟨hplain, hrightText⟩ | ⟨symbol, value, quote, rfl, rfl, htakes, hpattern⟩ := hrightText
    · have hnodes : (comparison left op right).shown = [left, op, right] := by
        simp [shown, hplain]
      rw [hnodes] at hshown ⊢
      have hwhole := (hshown left (by simp) _ hleftText).between hblank
        ((hshown op (by simp) _ hopText).between hblank (hshown right (by simp) _ hrightText))
      simpa [ownQuotations, hplain, hleft] using hwhole
    · have hisPattern : isPattern (.operator symbol) (.literal (.string value quote)) = true := htakes
      have hnodes : (comparison left (.operator symbol) (.literal (.string value quote))).shown =
          [left, .operator symbol] := by
        simp [shown, hisPattern]
      rw [hnodes] at hshown ⊢
      have hwhole := (hshown left (by simp) _ hleftText).between hblank
        ((hshown (.operator symbol) (by simp) _ hopText).between hblank
          (composed_patternText hspelled hpattern))
      simpa [ownQuotations, hisPattern, hleft] using hwhole

/-- **The text of one node is composed of those of the nodes below it**, if they are rendered with a
minus sign in front, or without, as they should be. -/
theorem composed_nodeText (hcalls : CallsWords renderer)
    (hvisit : ∀ child : Node, child.Everywhere Spelled → Composes renderer visit child)
    (hsigns : ∀ child : Node, child.Everywhere Spelled → Signs renderer.dialect visit child)
    (hnode : node.Everywhere Spelled) : Composes renderer (renderer.nodeText visit) node := by
  intro text h
  obtain ⟨hspelled, hbelow⟩ := everywhere_iff.mp hnode
  have hchildren : ∀ child ∈ node.children, Composes renderer visit child :=
    fun child hchild => hvisit child (hbelow child hchild)
  have hparting (mark : String) (h : isMark mark.toList = true) : Parting mark.toList := .inl h
  cases node with
  | query clauses => exact composed_of_children rfl rfl rfl rfl (composed_selectText hchildren h)
  | selectItem expr asName | tableRef expr asName =>
    simp only [nodeText, bind_eq_ok, pure_eq_ok] at h
    obtain ⟨shown, hshown, rfl⟩ := h
    refine composed_of_shown rfl rfl ?_
    simpa [Node.shown, children, ownQuotations] using
      composed_aliased (hchildren expr (by simp [children]) _ hshown) hspelled
  | join left kind right on =>
    simp only [nodeText, bind_eq_ok, pure_eq_ok] at h
    obtain ⟨leftText, hleft, rightText, hright, onText, hon, rfl⟩ := h
    have hkind : Parting (" " ++ kind.symbol ++ " ").toList := by cases kind <;> exact .inl rfl
    have hcondition := (hchildren right (by simp [children]) _ hright).between
      (hparting " ON " rfl) (hchildren on (by simp [children]) _ hon)
    refine composed_of_children rfl rfl rfl rfl ?_
    simpa [children] using (hchildren left (by simp [children]) _ hleft).between hkind hcondition
  | orderItem expr order =>
    have hexpr := hchildren expr (by simp [children])
    refine composed_of_children rfl rfl rfl rfl ?_
    cases order with
    | none => simpa [children] using hexpr text h
    | some order =>
      simp only [nodeText, bind_eq_ok, pure_eq_ok] at h
      obtain ⟨shown, hshown, rfl⟩ := h
      have horder : isMark (" " ++ order.symbol).toList = true := by cases order <;> rfl
      simpa [children] using (hexpr _ hshown).append_mark horder
  | logical left op right =>
    simp only [nodeText, bind_eq_ok, pure_eq_ok] at h
    obtain ⟨leftText, hleft, rightText, hright, rfl⟩ := h
    have hop : Parting (" " ++ op.symbol ++ " ").toList := by cases op <;> exact .inl rfl
    refine composed_of_children rfl rfl rfl rfl ?_
    simpa [children] using (hchildren left (by simp [children]) _ hleft).between hop
      (hchildren right (by simp [children]) _ hright)
  | not expr =>
    simp only [nodeText, bind_eq_ok, pure_eq_ok] at h
    obtain ⟨shown, hshown, rfl⟩ := h
    refine composed_of_children rfl rfl rfl rfl ?_
    simpa [children] using (hchildren expr (by simp [children]) _ hshown).after_plain
      (by decide : "NOT ".toList.all isSkipped = true)
  | comparison left op right =>
    exact composed_comparisonText
      (fun child hchild => hvisit child (everywhere_of_mem_shown hnode hchild))
      (everywhere_iff.mp (hbelow right (by simp [children]))).1 h
  | operator op =>
    obtain rfl := Except.ok.inj h
    refine composed_of_children rfl rfl rfl rfl (.plain ?_)
    cases op <;> decide
  | isNull expr negated =>
    simp only [nodeText, bind_eq_ok, pure_eq_ok] at h
    obtain ⟨shown, hshown, rfl⟩ := h
    have htest : isMark (" IS " ++ notText negated ++ "NULL").toList = true := by
      cases negated <;> rfl
    refine composed_of_children rfl rfl rfl rfl ?_
    simpa [children] using (hchildren expr (by simp [children]) _ hshown).append_mark htest
  | inList expr list negated =>
    simp only [nodeText, bind_eq_ok, pure_eq_ok] at h
    obtain ⟨shown, hshown, listed, hlisted, rfl⟩ := h
    have hin : Parting (" " ++ notText negated ++ "IN ").toList := by
      cases negated <;> exact .inl rfl
    have hlist :=
      composed_listText (fun item hitem => hchildren item (by simp [children, hitem])) hlisted
    refine composed_of_children rfl rfl rfl rfl ?_
    simpa [children] using
      (hchildren expr (by simp [children]) _ hshown).between hin hlist.parens
  | between expr low high negated =>
    simp only [nodeText, bind_eq_ok, pure_eq_ok] at h
    obtain ⟨shown, hshown, lowText, hlow, highText, hhigh, rfl⟩ := h
    have hword : Parting (" " ++ notText negated ++ "BETWEEN ").toList := by
      cases negated <;> exact .inl rfl
    have hrange := (hchildren low (by simp [children]) _ hlow).between (hparting " AND " rfl)
      (hchildren high (by simp [children]) _ hhigh)
    refine composed_of_children rfl rfl rfl rfl ?_
    simpa [children] using (hchildren expr (by simp [children]) _ hshown).between hword hrange
  | arithmetic left op right =>
    by_cases hop : op = .concat
    · subst hop
      simp only [nodeText, bind_eq_ok, pure_eq_ok, mapM_eq_ok] at h
      obtain ⟨parts, hparts, rfl⟩ := h
      rw [quotations_concat, signsMeet_of_shown rfl, shown]
      exact composed_concat (forall₂_of_mapM (fun operand hoperand =>
        hvisit operand (everywhere_of_mem_concatOperands hnode hoperand)) hparts)
    · simp only [nodeText, bind_eq_ok, pure_eq_ok] at h
      obtain ⟨leftText, hleft, rightText, hright, rfl⟩ := h
      have hshown : (arithmetic left op right).shown = (arithmetic left op right).children := by
        cases op <;> first | rfl | exact absurd rfl hop
      refine composed_of_children rfl hshown (by simpa [isChain] using hop) rfl ?_
      simpa [children] using composed_arithmeticText
        (composed_operandText (hchildren left (by simp [children]) _ hleft))
        (composed_operandText (hchildren right (by simp [children]) _ hright))
  | negate expr =>
    simp only [nodeText, bind_eq_ok, pure_eq_ok] at h
    obtain ⟨shown, hshown, rfl⟩ := h
    have hexpr := hbelow expr (by simp [children])
    have hnegate := composed_negateText (hvisit expr hexpr _ hshown) (hsigns expr hexpr _ hshown)
    rw [quotations_of_children rfl rfl rfl, signsMeet_eq]
    simpa [Node.shown, children] using hnegate
  | conditional condition thenValue elseValue =>
    exact composed_of_children rfl rfl rfl rfl (composed_conditionalText hchildren h)
  | call callee args =>
    simp only [nodeText, bind_eq_ok, pure_eq_ok] at h
    obtain ⟨listed, hlisted, rfl⟩ := h
    refine composed_of_children rfl rfl rfl rfl ?_
    simpa [children] using composed_call (isTokenChar_of_callsWords hcalls hspelled)
      (composed_listText hchildren hlisted)
  | grouped expr =>
    simp only [nodeText, bind_eq_ok, pure_eq_ok] at h
    obtain ⟨shown, hshown, rfl⟩ := h
    refine composed_of_children rfl rfl rfl rfl ?_
    simpa [children] using composed_parenthesized (hchildren expr (by simp [children]) _ hshown)
  | identifier parts =>
    obtain rfl := Except.ok.inj h
    exact composed_of_shown rfl rfl (composed_partsText hspelled.2)
  | literal value => exact composed_of_shown rfl rfl (composed_literalText hspelled h)
  | star =>
    obtain rfl := Except.ok.inj h
    exact composed_of_children rfl rfl rfl rfl (.plain (by decide))
  | qualifiedStar parts =>
    obtain rfl := Except.ok.inj h
    refine composed_of_shown rfl rfl ?_
    rw [String.toList_append]
    exact (composed_partsText hspelled.2).append_mark rfl
  | crosstab => cases h

/-! ### Trees -/

/-- **The text of a tree is composed of the quotations of the tree**, and minus signs meet in it
exactly if signs of the tree do. -/
theorem composed_renderAt (hcalls : CallsWords renderer) (hnode : node.Everywhere Spelled)
    (levels : Nat) : Composes renderer (renderer.renderAt levels) node := by
  induction levels generalizing node with
  | zero => exact fun _ h => nomatch h
  | succ levels ih =>
    exact composed_nodeText hcalls (fun child hchild => ih hchild)
      (fun child hchild => begins_renderAt hcalls hchild levels) hnode

end JetSql.Target
