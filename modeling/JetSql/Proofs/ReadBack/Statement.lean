/-
Written statements are read back.

A star in a select list also takes the spacing after it, so what a reader of clauses leaves is the
text that follows up to spacing. Nothing that comes next can tell the difference.

* **`read_source`:** every formed statement that fits the limit is what is read from its text.
-/

import JetSql.Proofs.ReadBack.Table

namespace JetSql

/-- A statement that selects one expression. -/
def Node.selecting (expr : Node) : Node :=
  query ⟨false, none, [selectItem expr none], [], none, [], none, []⟩

namespace Grammar

open Reader Node

variable {limit b : Nat} {s t rest : List Char} {node : Node} {words : List String}

/-! ### Up to spacing -/

theorem keyword_congr {word : String} (h : skipSpacing s = skipSpacing t) :
    keyword word s = keyword word t := by
  rw [keyword, keyword, h]

theorem symbol_congr {mark : String} (h : skipSpacing s = skipSpacing t) :
    symbol mark s = symbol mark t := by
  rw [symbol, seqRight_eq_bind, bind_apply, bind_apply, spacing, spacing, h]

/-! ### Items -/

/-- The words that may follow the select list. -/
def itemClosers : List String :=
  ["FROM", "WHERE", "GROUP", "HAVING", "ORDER", "PIVOT"]

theorem alias_source {asName : Option Part} (h : ∀ p, asName = some p → p.Formed)
    (hrest : Closes itemClosers rest) :
    optional (keyword "AS" *> part) (aliasSource asName ++ rest) = .ok asName rest := by
  have hapart : Apart rest := (hrest.mono (by decide)).apart
  cases asName with
  | none =>
    exact optional_eq_none.mpr ⟨seqRight_misses.mpr (.inl
      (hrest.keyword_misses (by decide) (by decide))), rfl⟩
  | some p =>
    have has : keyword "AS" (aliasSource (some p) ++ rest) = .ok () (' ' :: (p.source ++ rest)) :=
      keyword_source "AS" (by decide) rfl
    exact optional_eq_some.mpr (seqRight_eq_ok.mpr ⟨(), _, has,
      part_source (h p rfl) (hapart.head?_any (by decide))⟩)

theorem apart_alias (asName : Option Part) (hrest : Closes itemClosers rest) :
    Closes closers (aliasSource asName ++ rest) := by
  cases asName with
  | none => exact hrest.mono (by decide)
  | some p => exact .inl (.inr ⟨"AS", by decide, ' ' :: (p.source ++ rest), rfl, rfl⟩)

/-- An item of a select list is read back, up to the spacing after a star. -/
theorem selectItem_source (limit : Nat) (h : Formed .selectItem node) (hlevels : node.levels ≤ b)
    (hrest : Closes itemClosers rest) :
    ∃ stop, skipSpacing stop = skipSpacing rest ∧
      selectItem (expression limit b) (node.source ++ rest) = .ok node stop := by
  cases h with
  | itemStar =>
    exact ⟨skipSpacing rest, skipSpacing_skipSpacing rest, orElse_eq_ok.mpr (.inl (bind_eq_ok.mpr
      ⟨(), rest, symbol_eq_ok.mpr rfl, bind_eq_ok.mpr ⟨(), _, rfl, rfl⟩⟩))⟩
  | @qualifiedStar names hne hnames =>
    have hskip := skipSpacing_partsSource hne hnames ('.' :: '*' :: rest)
    have hstar : Misses (symbol "*") (partsSource names ++ '.' :: '*' :: rest) := by
      refine symbol_misses_of_head? (c := '*') rfl ?_
      rw [hskip]
      exact head?_partsSource_ne hne hnames (by decide) (by decide) _
    have hstop : Misses (char '.' *> part) ('.' :: '*' :: rest) :=
      seqRight_misses.mpr (.inr ⟨(), '*' :: rest, char_eq_ok.mpr rfl,
        part_misses (skipSpacing_cons (by decide) (by decide) rest) (by simp)
          (name_misses_of_head? rfl)⟩)
    have hparts : parts (partsSource names ++ '.' :: '*' :: rest) = .ok names ('.' :: '*' :: rest) :=
      parts_source hne hnames rfl hstop
    rw [source_qualifiedStar, List.append_assoc]
    exact ⟨rest, rfl, orElse_eq_ok.mpr (.inr ⟨bind_misses.mpr (.inl hstar),
      orElse_eq_ok.mpr (.inl (bind_eq_ok.mpr ⟨names, _, hparts,
        bind_eq_ok.mpr ⟨(), rest, exactly_eq_ok.mpr rfl, rfl⟩⟩))⟩)⟩
  | @selectItem expr asName hexpr hformed =>
    have hclose := apart_alias asName hrest
    have hopens := opens_source hexpr hclose.apart
    have hread := (operand_source limit hexpr).operand_of_closes (b := b)
      (levels_le_of_mem_inside hlevels (by simp [inside, children])) hclose
    rw [source_selectItem, List.append_assoc]
    exact ⟨rest, rfl, orElse_eq_ok.mpr (.inr ⟨bind_misses.mpr (.inl hopens.symbol_misses),
      orElse_eq_ok.mpr (.inr ⟨hopens.qualifiedStar_misses _, bind_eq_ok.mpr ⟨expr, _, hread,
        bind_eq_ok.mpr ⟨asName, rest, alias_source hformed hrest, rfl⟩⟩⟩)⟩)⟩

theorem selectItem_blank (limit b : Nat) (s : List Char) :
    selectItem (expression limit b) (' ' :: s) = selectItem (expression limit b) s := by
  refine orElse_congr ?_ (orElse_congr ?_ ?_)
  · rfl
  · rfl
  · rw [bind_apply, bind_apply, expression, operand_blank]

/-- The items of a select list are read back. -/
theorem items_source (limit : Nat) {items : List Node} (hne : items ≠ [])
    (hitems : ∀ item ∈ items, Formed .selectItem item ∧ item.levels ≤ b)
    (hrest : Begins itemClosers rest) :
    ∃ stop, skipSpacing stop = skipSpacing rest ∧
      separated1 (symbol ",") (selectItem (expression limit b))
        (commas (items.map source) ++ rest) = .ok items stop := by
  have hmark (s : List Char) : skipSpacing (',' :: s) = ',' :: s :=
    skipSpacing_cons (by decide) (by decide) s
  refine separated1_source [',', ' '] (Closes itemClosers)
    (fun s t => skipSpacing s = skipSpacing t) (by simp) (fun s => closes_comma ..) ?_ ?_ ?_ hne
    (.inl hrest) ?_
  · intro s t h
    have hlength := length_skip_le false s
    rw [show skip false s = ',' :: ' ' :: t from h.trans (hmark _)] at hlength
    exact hlength
  · intro item hitem rest hrest
    exact selectItem_source limit (hitems item hitem).1 (hitems item hitem).2 hrest
  · intro item hitem rest hrest s hs
    obtain ⟨stop, hstop, hread⟩ := selectItem_source limit (hitems item hitem).1
      (hitems item hitem).2 hrest
    refine ⟨stop, hstop, seqRight_eq_ok.mpr ⟨(), ' ' :: (item.source ++ rest), ?_, ?_⟩⟩
    · exact symbol_eq_ok.mpr (hs.trans (hmark _))
    · rw [selectItem_blank, hread]
  · intro s hs
    have hcomma : Misses (symbol ",") rest :=
      hrest.symbol_misses (c := ',') rfl (by decide) (by decide)
    rw [Misses, ← symbol_congr hs] at hcomma
    exact seqRight_misses.mpr (.inl hcomma)

/-- An item to sort by is read back. -/
theorem orderItem_source (h : Formed .orderItem node) (hlevels : node.levels ≤ b)
    (hrest : Closes ["PIVOT"] rest) :
    orderItem (expression limit b) (node.source ++ rest) = .ok node rest := by
  cases h with
  | @orderItem expr order hexpr =>
    have hword : rest.head?.any Text.isWordChar = false :=
      (hrest.mono (by decide : ["PIVOT"] ⊆ closers)).apart.head?_any (by decide)
    have hclose : Closes closers (orderSource order ++ rest) := by
      cases order with
      | none => exact hrest.mono (by decide)
      | some order =>
        cases order with
        | asc => exact .inl (.inr ⟨"ASC", by decide, rest, hword, rfl⟩)
        | desc => exact .inl (.inr ⟨"DESC", by decide, rest, hword, rfl⟩)
    have hread := (operand_source limit hexpr).operand_of_closes (b := b)
      (levels_le_of_mem_inside hlevels (by simp [inside, children])) hclose
    have horder : optional ((keyword "ASC" *> pure SortOrder.asc) <|> (keyword "DESC" *> pure .desc))
        (orderSource order ++ rest) = .ok order rest := by
      cases order with
      | none =>
        exact optional_eq_none.mpr ⟨orElse_misses.mpr
          ⟨seqRight_misses.mpr (.inl (hrest.keyword_misses (by decide) (by decide))),
            seqRight_misses.mpr (.inl (hrest.keyword_misses (by decide) (by decide)))⟩, rfl⟩
      | some order =>
        refine optional_eq_some.mpr (orElse_eq_ok.mpr ?_)
        cases order with
        | asc =>
          exact .inl (seqRight_eq_ok.mpr ⟨(), rest,
            (keyword_blank ..).trans (keyword_source _ (by decide) hword), rfl⟩)
        | desc =>
          have hasc : Misses (keyword "ASC") (' ' :: ("DESC".toList ++ rest)) := by
            rw [Misses, keyword_blank]
            exact keyword_misses_word _ (by decide) (by decide) hword (by decide)
          exact .inr ⟨seqRight_misses.mpr (.inl hasc), seqRight_eq_ok.mpr ⟨(), rest,
            (keyword_blank ..).trans (keyword_source _ (by decide) hword), rfl⟩⟩
    rw [source_orderItem, List.append_assoc]
    exact bind_eq_ok.mpr ⟨expr, _, hread, bind_eq_ok.mpr ⟨order, rest, horder, rfl⟩⟩

theorem orderItem_blank (limit b : Nat) (s : List Char) :
    orderItem (expression limit b) (' ' :: s) = orderItem (expression limit b) s := by
  rw [orderItem, bind_apply, bind_apply, expression, operand_blank]

/-! ### Clauses -/

variable {word opening : String} {clause : Option Node}

theorem begins_clause (word : String) (more : List Char)
    (hopening : opening.toList = ' ' :: (word.toList ++ more))
    (hmore : more.head?.any Text.isWordChar = false) (hrest : Begins words rest)
    {text : List Char} (htext : text = [] ∨ ∃ tail, text = opening.toList ++ ' ' :: tail) :
    Begins (word :: words) (text ++ rest) := by
  rcases htext with rfl | ⟨tail, rfl⟩
  · exact hrest.mono (List.subset_cons_self _ _)
  · refine .inr ⟨word, List.mem_cons_self, more ++ (' ' :: tail ++ rest), ?_, by simp [hopening]⟩
    cases more with
    | nil => rfl
    | cons c more => exact hmore

theorem clauseSource_eq (opening : String) (clause : Option Node) :
    clauseSource opening clause = [] ∨
      ∃ tail, clauseSource opening clause = opening.toList ++ ' ' :: tail := by
  cases clause with
  | none => exact .inl rfl
  | some node => exact .inr ⟨node.source, rfl⟩

theorem listSource_eq (opening : String) (texts : List (List Char)) :
    listSource opening texts = [] ∨
      ∃ tail, listSource opening texts = opening.toList ++ ' ' :: tail := by
  by_cases htexts : texts = []
  · exact .inl (if_pos htexts)
  · exact .inr ⟨commas texts, if_neg htexts⟩

/-- A clause that may be missing is read back. -/
theorem clause_source (limit : Nat) (word : String) (hopening : opening.toList = ' ' :: word.toList)
    (hword : Text.isWord word.toList = true ∧ word.toList.map Char.toUpper = word.toList)
    (hclause : ∀ node ∈ clause.toList, Formed .expr node ∧ node.levels ≤ b)
    (hrest : Begins itemClosers rest) (hmisses : Misses (keyword word) rest)
    (hs : skipSpacing s = skipSpacing (clauseSource opening clause ++ rest)) :
    ∃ stop, skipSpacing stop = skipSpacing rest ∧
      optional (keyword word *> expression limit b) s = .ok clause stop := by
  cases clause with
  | none =>
    have hs : skipSpacing s = skipSpacing rest := hs
    rw [Misses, ← keyword_congr hs] at hmisses
    exact ⟨s, hs, optional_eq_none.mpr ⟨seqRight_misses.mpr (.inl hmisses), rfl⟩⟩
  | some node =>
    obtain ⟨hformed, hlevels⟩ := hclause node (by simp)
    have hclose : Closes closers rest := .inl (hrest.mono (by decide))
    have hread := (operand_source limit hformed).operand_of_closes hlevels hclose
    refine ⟨rest, rfl, optional_eq_some.mpr (seqRight_eq_ok.mpr ⟨(), ' ' :: (node.source ++ rest),
      ?_, (operand_blank ..).trans hread⟩)⟩
    rw [keyword_congr hs, clauseSource, hopening, List.append_assoc, List.cons_append]
    exact (keyword_blank ..).trans (keyword_source _ hword rfl)

/-- A clause that lists nodes, perhaps none, is read back. -/
theorem listAfter_source {start : Reader Unit} {item : Reader Node} {nodes : List Node}
    (After : List Char → Prop)
    (hstart : ∀ s t, skipSpacing s = skipSpacing (opening.toList ++ ' ' :: t) →
      start s = .ok () (' ' :: t))
    (hmisses : ∀ s, skipSpacing s = skipSpacing rest → Misses start s)
    (hafter : ∀ s, After (',' :: s)) (hblank : ∀ s, item (' ' :: s) = item s)
    (hitem : ∀ v ∈ nodes, ∀ rest, After rest → item (v.source ++ rest) = .ok v rest)
    (hrest : After rest) (hstop : Misses (symbol ",") rest)
    (hs : skipSpacing s = skipSpacing (listSource opening (nodes.map source) ++ rest)) :
    ∃ stop, skipSpacing stop = skipSpacing rest ∧ listAfter start item s = .ok nodes stop := by
  cases nodes with
  | nil =>
    exact ⟨s, hs, bind_eq_ok.mpr ⟨none, s,
      optional_eq_none.mpr ⟨seqRight_misses.mpr (.inl (hmisses s hs)), rfl⟩, rfl⟩⟩
  | cons node nodes =>
    have hlist := separated1_commas hafter hblank hitem (List.cons_ne_nil node nodes) hrest hstop
    rw [listSource, if_neg (by simp), List.append_assoc] at hs
    exact ⟨rest, rfl, bind_eq_ok.mpr ⟨some (node :: nodes), rest,
      optional_eq_some.mpr (seqRight_eq_ok.mpr ⟨(), _, hstart s _ hs,
        separated1_blank hblank hlist⟩), rfl⟩⟩

/-- Two words that open a clause are read back. -/
theorem keywords_source {first second : String} {t : List Char}
    (hopening : opening.toList = ' ' :: (first.toList ++ ' ' :: second.toList))
    (hfirst : Text.isWord first.toList = true ∧ first.toList.map Char.toUpper = first.toList)
    (hsecond : Text.isWord second.toList = true ∧ second.toList.map Char.toUpper = second.toList)
    (hs : skipSpacing s = skipSpacing (opening.toList ++ ' ' :: t)) :
    (keyword first *> keyword second) s = .ok () (' ' :: t) := by
  refine seqRight_eq_ok.mpr ⟨(), ' ' :: (second.toList ++ ' ' :: t), ?_, ?_⟩
  · rw [keyword_congr hs, hopening, List.cons_append, List.append_assoc, List.cons_append]
    exact (keyword_blank ..).trans (keyword_source _ hfirst rfl)
  · exact (keyword_blank ..).trans (keyword_source _ hsecond rfl)

/-! ### The beginning of a select -/

/-- An item of a select list begins with no keyword that an expression does not begin with. -/
theorem keyword_misses_item (h : Formed .selectItem node) (hrest : Closes itemClosers rest)
    (hreserved : word ∈ reservedWords ∧ isSteady word = true)
    (hopeners : ∀ w ∈ openers, w.toList.map Char.toUpper ≠ word.toList) :
    Misses (keyword word) (node.source ++ rest) := by
  have hword := (by decide : ∀ word ∈ reservedWords,
    word.toList ≠ [] ∧ word.toList.all Char.isUpper = true) word hreserved.1
  cases h with
  | itemStar => exact keyword_misses_of_no_word hword rfl
  | qualifiedStar hne hnames =>
    rw [source_qualifiedStar, List.append_assoc]
    exact keyword_misses_partsSource hne hnames hreserved rfl
  | @selectItem expr asName hexpr _ =>
    rw [source_selectItem, List.append_assoc]
    exact (opens_source hexpr (apart_alias asName hrest).apart).keyword_misses hreserved hopeners

theorem keyword_misses_items (word : String) {items : List Node} (hne : items ≠ [])
    (hitems : ∀ item ∈ items, Formed .selectItem item) (hrest : Begins itemClosers rest)
    (hreserved : word ∈ reservedWords ∧ isSteady word = true)
    (hopeners : ∀ w ∈ openers, w.toList.map Char.toUpper ≠ word.toList) :
    Misses (keyword word) (' ' :: (commas (items.map source) ++ rest)) := by
  obtain ⟨item, items, rfl⟩ := List.exists_cons_of_ne_nil hne
  rw [Misses, keyword_blank, commas, intercalate_map_cons, List.append_assoc]
  exact keyword_misses_item (hitems item List.mem_cons_self)
    (after_flatMap _ _ (fun s => closes_comma ..) (.inl hrest)) hreserved hopeners

/-- A row count is read back. -/
theorem rowCount_source {rows : Nat} (hrows : rows < UInt64.size)
    (hrest : rest.head?.any Char.isDigit = false) :
    rowCount (' ' :: (Nat.toDigits 10 rows ++ rest)) = .ok rows rest := by
  have hdigits : (Nat.toDigits 10 rows).all Char.isDigit = true :=
    List.all_eq_true.mpr fun c hc => Nat.isDigit_of_mem_toDigits (by decide) (by decide) hc
  obtain ⟨c, cs, hcs⟩ := List.exists_cons_of_ne_nil (Nat.toDigits_ne_nil (n := rows) (b := 10))
  have hskip : skipSpacing (Nat.toDigits 10 rows ++ rest) = Nat.toDigits 10 rows ++ rest := by
    rw [hcs, List.all_cons, Bool.and_eq_true] at hdigits
    rw [hcs]
    exact skipSpacing_of_class (by decide) hdigits.1 _
  have hvalue : rowCount.digitsValue (Nat.toDigits 10 rows) = rows :=
    Nat.ofDigitChars_eq_foldl.symm.trans Nat.ofDigitChars_ten_toDigits
  refine bind_eq_ok.mpr ⟨(), _, spacing_eq_ok.mpr ((skipSpacing_blank _).trans hskip),
    bind_eq_ok.mpr ⟨Nat.toDigits 10 rows, rest, satisfying_eq_ok.mpr ⟨?_, ?_⟩, ?_⟩⟩
  · exact run1_eq_ok.mpr ⟨⟨rfl, hdigits, hrest⟩, Nat.toDigits_ne_nil⟩
  · rw [hvalue]
    exact decide_eq_true hrows
  · rw [hvalue]
    rfl

/-- The limit on rows is read back, and so is its absence. -/
theorem top_source {top : Option Nat} (htop : ∀ rows, top = some rows → rows < UInt64.size)
    (hmisses : Misses (keyword "TOP") (' ' :: rest)) :
    optional (keyword "TOP" *> rowCount) (topSource top ++ ' ' :: rest) = .ok top (' ' :: rest) := by
  cases top with
  | none => exact optional_eq_none.mpr ⟨seqRight_misses.mpr (.inl hmisses), rfl⟩
  | some rows =>
    refine optional_eq_some.mpr (seqRight_eq_ok.mpr
      ⟨(), ' ' :: (Nat.toDigits 10 rows ++ ' ' :: rest), ?_, rowCount_source (htop rows rfl) rfl⟩)
    exact keyword_source "TOP" (by decide) rfl

/-- `SELECT` is read back, with `DISTINCT` or without it. -/
theorem distinct_source (distinct : Bool) (top : Option Nat)
    (hmisses : Misses (keyword "DISTINCT") (' ' :: rest)) :
    ∃ middle found,
      keyword "SELECT" ((if distinct then "SELECT DISTINCT".toList else "SELECT".toList) ++
        (topSource top ++ ' ' :: rest)) = .ok () middle ∧
      optional (keyword "DISTINCT") middle = .ok found (topSource top ++ ' ' :: rest) ∧
        found.isSome = distinct := by
  have hword : (topSource top ++ ' ' :: rest).head?.any Text.isWordChar = false := by
    cases top <;> rfl
  cases distinct with
  | false =>
    have hnone : Misses (keyword "DISTINCT") (topSource top ++ ' ' :: rest) := by
      cases top with
      | none => exact hmisses
      | some rows =>
        have htop : Misses (keyword "DISTINCT")
            ("TOP".toList ++ ' ' :: (Nat.toDigits 10 rows ++ ' ' :: rest)) :=
          keyword_misses_word _ (by decide) (by decide) rfl (by decide)
        rwa [Misses, ← keyword_blank] at htop
    exact ⟨_, none, keyword_source "SELECT" (by decide) hword,
      optional_eq_none.mpr ⟨hnone, rfl⟩, rfl⟩
  | true =>
    exact ⟨' ' :: ("DISTINCT".toList ++ (topSource top ++ ' ' :: rest)), some (),
      keyword_source "SELECT" (by decide) rfl,
      optional_eq_some.mpr ((keyword_blank ..).trans (keyword_source _ (by decide) hword)), rfl⟩

/-! ### Lists after the select list -/

theorem Begins.misses_comma (h : Begins itemClosers rest) : Misses (symbol ",") rest :=
  h.symbol_misses (c := ',') rfl (by decide) (by decide)

theorem keyword_misses_alike (hmisses : Misses (keyword word) rest)
    (hs : skipSpacing s = skipSpacing rest) : Misses (keyword word) s := by
  rwa [Misses, keyword_congr hs]

theorem froms_source (limit : Nat) {froms : List Node}
    (hfroms : ∀ table ∈ froms, Formed .tables table ∧ table.levels ≤ b)
    (hrest : Begins ["WHERE", "GROUP", "HAVING", "ORDER", "PIVOT"] rest)
    (hs : skipSpacing s = skipSpacing (listSource " FROM" (froms.map source) ++ rest)) :
    ∃ stop, skipSpacing stop = skipSpacing rest ∧
      listAfter (keyword "FROM") (tables limit b) s = .ok froms stop := by
  refine listAfter_source (Closes joinClosers) ?_ ?_ (fun s => closes_comma ..)
    (tables_blank limit b) ?_ (.inl (hrest.mono (by decide)))
    (hrest.mono (by decide : _ ⊆ itemClosers)).misses_comma hs
  · intro s t hs
    rw [keyword_congr hs]
    exact (keyword_blank ..).trans (keyword_source "FROM" (by decide) rfl)
  · exact fun s => keyword_misses_alike (hrest.keyword_misses (by decide) (by decide))
  · intro table htable rest hrest
    have hread := tables_source limit (hfroms table htable).1 b rest (hfroms table htable).2
      (hrest.mono (by decide))
    exact hread.trans (joins_of_closes hrest)

theorem groups_source (limit : Nat) {groups : List Node}
    (hgroups : ∀ group ∈ groups, Formed .expr group ∧ group.levels ≤ b)
    (hrest : Begins ["HAVING", "ORDER", "PIVOT"] rest)
    (hs : skipSpacing s = skipSpacing (listSource " GROUP BY" (groups.map source) ++ rest)) :
    ∃ stop, skipSpacing stop = skipSpacing rest ∧
      listAfter (keyword "GROUP" *> keyword "BY") (expression limit b) s = .ok groups stop := by
  refine listAfter_source (Closes closers) ?_ ?_ (fun s => closes_comma ..)
    (operand_blank limit b loosest) ?_ (.inl (hrest.mono (by decide)))
    (hrest.mono (by decide : _ ⊆ itemClosers)).misses_comma hs
  · exact fun s t => keywords_source rfl (by decide) (by decide)
  · exact fun s hs => seqRight_misses.mpr
      (.inl (keyword_misses_alike (hrest.keyword_misses (by decide) (by decide)) hs))
  · exact fun group hgroup rest hrest =>
      (operand_source limit (hgroups group hgroup).1).operand_of_closes (hgroups group hgroup).2 hrest

theorem orders_source (limit : Nat) {orders : List Node}
    (horders : ∀ order ∈ orders, Formed .orderItem order ∧ order.levels ≤ b)
    (hrest : Begins ["PIVOT"] rest)
    (hs : skipSpacing s = skipSpacing (listSource " ORDER BY" (orders.map source) ++ rest)) :
    ∃ stop, skipSpacing stop = skipSpacing rest ∧
      listAfter (keyword "ORDER" *> keyword "BY") (orderItem (expression limit b)) s =
        .ok orders stop := by
  refine listAfter_source (Closes ["PIVOT"]) ?_ ?_ (fun s => closes_comma ..)
    (orderItem_blank limit b) ?_ (.inl hrest)
    (hrest.mono (by decide : _ ⊆ itemClosers)).misses_comma hs
  · exact fun s t => keywords_source rfl (by decide) (by decide)
  · exact fun s hs => seqRight_misses.mpr
      (.inl (keyword_misses_alike (hrest.keyword_misses (by decide) (by decide)) hs))
  · exact fun order horder rest hrest =>
      orderItem_source (horders order horder).1 (horders order horder).2 hrest

/-! ### Statements -/

/-- A written `SELECT` is read back, up to spacing. -/
theorem select_source (limit : Nat) {clauses : Clauses Node} (h : Formed .select (.query clauses))
    (hlevels : (query clauses).levels ≤ b) (hrest : Begins ["PIVOT"] rest) :
    ∃ stop, skipSpacing stop = skipSpacing rest ∧
      select limit b ((query clauses).source ++ rest) = .ok clauses stop := by
  obtain ⟨distinct, top, items, froms, condition, groups, having, orders⟩ := clauses
  cases h with
  | select htop hne hitems hfroms hcondition hgroups hhaving horders =>
  have hfits : ∀ child ∈ (Clauses.mk distinct top items froms condition groups having orders).nodes,
      child.levels ≤ b := fun child hchild => levels_le_of_mem_inside hlevels hchild
  simp only [Clauses.nodes, List.mem_append] at hfits
  -- What each part is followed by.
  have horders' := begins_clause "ORDER" " BY".toList rfl rfl hrest
    (listSource_eq " ORDER BY" (orders.map source))
  have hhaving' := begins_clause "HAVING" [] rfl rfl horders'
    (clauseSource_eq " HAVING" having)
  have hgroups' := begins_clause "GROUP" " BY".toList rfl rfl hhaving'
    (listSource_eq " GROUP BY" (groups.map source))
  have hcondition' := begins_clause "WHERE" [] rfl rfl hgroups'
    (clauseSource_eq " WHERE" condition)
  have hfroms' := begins_clause "FROM" [] rfl rfl hcondition'
    (listSource_eq " FROM" (froms.map source))
  -- The parts, in the order in which they are read.
  obtain ⟨stop, hstop, hreaditems⟩ := items_source limit hne
    (fun item hitem => ⟨hitems item hitem, hfits item (by simp [hitem])⟩) hfroms'
  obtain ⟨stop₁, hstop₁, hreadfroms⟩ := froms_source limit
    (fun table htable => ⟨hfroms table htable, hfits table (by simp [htable])⟩) hcondition' hstop
  obtain ⟨stop₂, hstop₂, hreadcondition⟩ := clause_source limit "WHERE" rfl (by decide)
    (fun node hnode => ⟨hcondition node hnode, hfits node (by simp [hnode])⟩)
    (hgroups'.mono (by decide)) (hgroups'.keyword_misses (by decide) (by decide)) hstop₁
  obtain ⟨stop₃, hstop₃, hreadgroups⟩ := groups_source limit
    (fun group hgroup => ⟨hgroups group hgroup, hfits group (by simp [hgroup])⟩) hhaving' hstop₂
  obtain ⟨stop₄, hstop₄, hreadhaving⟩ := clause_source limit "HAVING" rfl (by decide)
    (fun node hnode => ⟨hhaving node hnode, hfits node (by simp [hnode])⟩)
    (horders'.mono (by decide)) (horders'.keyword_misses (by decide) (by decide)) hstop₃
  obtain ⟨stop₅, hstop₅, hreadorders⟩ := orders_source limit
    (fun order horder => ⟨horders order horder, hfits order (by simp [horder])⟩) hrest hstop₄
  have hnotop := keyword_misses_items "TOP" hne hitems hfroms' (by decide) (by decide)
  have hnodistinct :=
    keyword_misses_items "DISTINCT" hne hitems hfroms' (by decide) (by decide)
  have hreadtop := top_source htop hnotop
  obtain ⟨middle, found, hselect, hdistinct, rfl⟩ := distinct_source distinct top hnodistinct
  refine ⟨stop₅, hstop₅, ?_⟩
  simp only [source_query, List.append_assoc, List.cons_append]
  exact bind_eq_ok.mpr ⟨(), middle, hselect, bind_eq_ok.mpr ⟨found, _, hdistinct,
    bind_eq_ok.mpr ⟨top, _, hreadtop, bind_eq_ok.mpr ⟨items, stop,
      expecting_eq_ok.mpr (separated1_blank (selectItem_blank limit b) hreaditems),
      bind_eq_ok.mpr ⟨froms, stop₁, hreadfroms, bind_eq_ok.mpr ⟨condition, stop₂, hreadcondition,
        bind_eq_ok.mpr ⟨groups, stop₃, hreadgroups, bind_eq_ok.mpr ⟨having, stop₄, hreadhaving,
          bind_eq_ok.mpr ⟨orders, stop₅, hreadorders, rfl⟩⟩⟩⟩⟩⟩⟩⟩⟩

theorem source_query_eq (clauses : Clauses Node) :
    ∃ more, more.head?.any Text.isWordChar = false ∧
      (query clauses).source = "SELECT".toList ++ more := by
  rw [source_query]
  cases clauses.distinct with
  | false => exact ⟨_, by cases clauses.top <;> rfl, rfl⟩
  | true => exact ⟨" DISTINCT".toList ++ _, rfl, rfl⟩

/-- What is read of a statement before the end of the text. -/
theorem statement_of_body
    (h : (crosstab limit b <|> (return .query (← select limit b))) s = .ok node rest)
    (hrest : skipSpacing rest = []) : statement limit b s = .ok node [] := by
  have hsemicolon : Misses (symbol ";") rest :=
    symbol_misses_of_head? (c := ';') rfl (by rw [hrest]; simp)
  exact bind_eq_ok.mpr ⟨node, rest, h, bind_eq_ok.mpr ⟨none, rest,
    optional_eq_none.mpr ⟨hsemicolon, rfl⟩, bind_eq_ok.mpr ⟨(), [], spacing_eq_ok.mpr hrest, rfl⟩⟩⟩

/-- **Every formed statement that fits the limit is read back from its text.** -/
theorem read_source (limit : Nat) (h : Formed .statement node) (hlevels : node.levels ≤ limit - 1) :
    read limit node.source = .ok node := by
  suffices hstatement : statement limit (limit - 1) node.source = .ok node [] by
    rw [read, hstatement, resultOf]
  generalize limit - 1 = b at hlevels
  cases h with
  | @query node hselect =>
    obtain ⟨clauses, rfl⟩ : ∃ clauses, node = query clauses := by
      cases hselect
      exact ⟨_, rfl⟩
    have hend : Begins ["PIVOT"] [] := .inl rfl
    obtain ⟨stop, hstop, hread⟩ := select_source limit hselect hlevels hend
    obtain ⟨more, hmore, hsource⟩ := source_query_eq clauses
    rw [List.append_nil] at hread
    refine statement_of_body (orElse_eq_ok.mpr (.inr ⟨bind_misses.mpr (.inl ?_),
      bind_eq_ok.mpr ⟨clauses, stop, hread, rfl⟩⟩)) hstop
    rw [hsource]
    exact keyword_misses_word _ (by decide) (by decide) hmore (by decide)
  | @crosstab value select pivot hvalue hselect hpivot =>
    obtain ⟨clauses, rfl⟩ : ∃ clauses, select = query clauses := by
      cases hselect
      exact ⟨_, rfl⟩
    obtain ⟨b, rfl, hinside⟩ := exists_of_spends rfl hlevels
    simp only [inside, children, List.mem_cons, List.not_mem_nil, or_false] at hinside
    obtain ⟨more, hmore, hsource⟩ := source_query_eq clauses
    have hafter : Begins ["PIVOT"] (" PIVOT ".toList ++ pivot.source) :=
      .inr ⟨"PIVOT", by decide, ' ' :: pivot.source, rfl, rfl⟩
    obtain ⟨stop, hstop, hreadselect⟩ := select_source limit hselect
      (hinside _ (.inr (.inl rfl))) hafter
    have hclose : Closes closers
        (' ' :: ((query clauses).source ++ (" PIVOT ".toList ++ pivot.source))) := by
      refine .inl (.inr ⟨"SELECT", by decide, more ++ (" PIVOT ".toList ++ pivot.source), ?_, ?_⟩)
      · cases more with
        | nil => rfl
        | cons c more => exact hmore
      · rw [hsource, List.append_assoc]
    have hreadvalue := (operand_source limit hvalue).operand_of_closes (hinside _ (.inl rfl)) hclose
    have hend : Closes closers [] := .inl (.inl rfl)
    have hreadpivot := (operand_source limit hpivot).operand_of_closes
      (hinside _ (.inr (.inr rfl))) hend
    rw [List.append_nil] at hreadpivot
    have hpivot : keyword "PIVOT" stop = .ok () (' ' :: pivot.source) := by
      rw [keyword_congr hstop]
      exact (keyword_blank ..).trans (keyword_source "PIVOT" (by decide) rfl)
    have htransform : keyword "TRANSFORM" ("TRANSFORM ".toList ++ (value.source ++
        ' ' :: ((query clauses).source ++ (" PIVOT ".toList ++ pivot.source)))) =
        .ok () (' ' :: (value.source ++
          ' ' :: ((query clauses).source ++ (" PIVOT ".toList ++ pivot.source)))) :=
      keyword_source "TRANSFORM" (by decide) rfl
    rw [source_crosstab, List.append_assoc]
    refine statement_of_body (orElse_eq_ok.mpr (.inl ?_)) (rfl : skipSpacing [] = [])
    refine bind_eq_ok.mpr ⟨(), _, htransform, bind_eq_ok.mpr ⟨value, _,
      (operand_blank ..).trans hreadvalue, bind_eq_ok.mpr ⟨clauses, stop, ?_, ?_⟩⟩⟩
    · exact expecting_eq_ok.mpr hreadselect
    · exact bind_eq_ok.mpr ⟨(), _, expecting_eq_ok.mpr hpivot,
        bind_eq_ok.mpr ⟨pivot, [], (operand_blank ..).trans hreadpivot, rfl⟩⟩

/-! ### One expression -/

variable {expr : Node}

theorem formed_selecting (h : Formed .expr expr) : Formed .statement (selecting expr) :=
  .query (.select (by simp) (by simp)
    (List.forall_mem_singleton.mpr (.selectItem h (by simp))) (by simp) (by simp) (by simp) (by simp)
    (by simp))

/-- A text of one expression is read as the statement that selects it, however it is written. -/
theorem read_selecting (hopens : Opens s) (hread : expression limit (limit - 1) s = .ok expr []) :
    read limit ("SELECT ".toList ++ s) = .ok (selecting expr) := by
  suffices hstatement : statement limit (limit - 1) ("SELECT ".toList ++ s) = .ok (selecting expr) [] by
    rw [read, hstatement, resultOf]
  generalize limit - 1 = b at hread
  have hselect : keyword "SELECT" ("SELECT".toList ++ ' ' :: s) = .ok () (' ' :: s) :=
    keyword_source "SELECT" (by decide) rfl
  have htransform : Misses (keyword "TRANSFORM") ("SELECT".toList ++ ' ' :: s) :=
    keyword_misses_word _ (by decide) (by decide) rfl (by decide)
  have hnodistinct : Misses (keyword "DISTINCT") (' ' :: s) := by
    rw [Misses, keyword_blank]
    exact hopens.keyword_misses (by decide) (by decide)
  have hnotop : Misses (keyword "TOP") (' ' :: s) := by
    rw [Misses, keyword_blank]
    exact hopens.keyword_misses (by decide) (by decide)
  have hitem : selectItem (expression limit b) (' ' :: s) = .ok (.selectItem expr none) [] := by
    rw [selectItem_blank]
    exact orElse_eq_ok.mpr (.inr ⟨bind_misses.mpr (.inl hopens.symbol_misses), orElse_eq_ok.mpr
      (.inr ⟨hopens.qualifiedStar_misses _, bind_eq_ok.mpr ⟨expr, [], hread,
        bind_eq_ok.mpr ⟨none, [], rfl, rfl⟩⟩⟩)⟩)
  have hitems : separated1 (symbol ",") (selectItem (expression limit b)) (' ' :: s) =
      .ok [.selectItem expr none] [] :=
    bind_eq_ok.mpr ⟨.selectItem expr none, [], hitem, rfl⟩
  refine statement_of_body (orElse_eq_ok.mpr (.inr ⟨bind_misses.mpr (.inl htransform),
    bind_eq_ok.mpr ⟨_, [], ?_, rfl⟩⟩)) (rfl : skipSpacing [] = [])
  exact bind_eq_ok.mpr ⟨(), _, hselect, bind_eq_ok.mpr ⟨none, _,
    optional_eq_none.mpr ⟨hnodistinct, rfl⟩, bind_eq_ok.mpr ⟨none, _,
      optional_eq_none.mpr ⟨seqRight_misses.mpr (.inl hnotop), rfl⟩,
      bind_eq_ok.mpr ⟨_, [], expecting_eq_ok.mpr hitems, rfl⟩⟩⟩⟩

end Grammar

end JetSql
