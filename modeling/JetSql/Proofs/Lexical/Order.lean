/-
The walk through a tree meets the operands in the order of the text.

What is written of a node yields the operands that a walk through the node meets. So they are the
operands that `operands` finds in the text that the tree was read from, though that knows nothing of
trees: no field is read out of its turn, and no alias and no name of a function is met.

* **`yields_of_formed`:** what is written of a formed node yields its operands, one case for every
  construct. It wants an operand at its beginning, and none behind its end.
* **`walkedOperands_of_read`:** the walk through a tree that is read meets the operands of the text.
-/

import JetSql.Proofs.Lexical.Account
import JetSql.Proofs.Lexical.Operand
import JetSql.Proofs.Tree.Walk

namespace JetSql

namespace Node

variable {node first second third : Node} {depth : Nat}

/-- A name, a literal or a star. -/
def isOperand : Node → Bool
  | identifier _ | literal _ | star | qualifiedStar _ => true
  | _ => false

/-- The operands that a walk meets. -/
def walkedOperands (depth : Nat) (node : Node) : List Node :=
  ((node.walk depth).map Prod.snd).filter isOperand

theorem walkedOperands_eq (depth : Nat) (node : Node) :
    node.walkedOperands depth =
      [node].filter isOperand ++ node.children.flatMap (walkedOperands (depth + 1)) := by
  rw [walkedOperands, walk_eq, List.map_cons, List.map_flatMap, ← List.singleton_append,
    List.filter_append, List.filter_flatMap]
  rfl

theorem walkedOperands_of_not (h : node.isOperand = false) (depth : Nat) :
    node.walkedOperands depth = node.children.flatMap (walkedOperands (depth + 1)) := by
  simp [walkedOperands_eq depth node, h]

theorem walkedOperands_leaf (h : node.isOperand = true) (hchildren : node.children = []) :
    node.walkedOperands depth = [node] := by
  simp [walkedOperands_eq depth node, h, hchildren]

theorem walkedOperands_one (h : node.isOperand = false) (hchildren : node.children = [first]) :
    node.walkedOperands depth = first.walkedOperands (depth + 1) := by
  simp [walkedOperands_of_not h, hchildren]

theorem walkedOperands_two (h : node.isOperand = false)
    (hchildren : node.children = [first, second]) :
    node.walkedOperands depth =
      first.walkedOperands (depth + 1) ++ second.walkedOperands (depth + 1) := by
  simp [walkedOperands_of_not h, hchildren]

theorem walkedOperands_three (h : node.isOperand = false)
    (hchildren : node.children = [first, second, third]) :
    node.walkedOperands depth =
      first.walkedOperands (depth + 1) ++
        (second.walkedOperands (depth + 1) ++ third.walkedOperands (depth + 1)) := by
  simp [walkedOperands_of_not h, hchildren]

end Node

namespace Grammar

open Node

variable {pieces pieces' : List Piece} {before middle after : Bool} {found found' : List Node}

/-! ### Between operands -/

theorem passes_leading {word : String} (hleads : leadingWords.contains word = true) :
    Passes [.keyword word] false true :=
  passes_keyword (absurd · Bool.false_ne_true) (by rw [keywordLeads, hleads, Bool.true_or])

/-- Where no operand is wanted, a word that does not lead to one leaves it so. -/
theorem passes_trailing {word : String} (hleads : leadingWords.contains word = false) :
    Passes [.keyword word] false false :=
  passes_keyword (absurd · Bool.false_ne_true) (by rw [keywordLeads, hleads]; rfl)

/-- The words that may stand where an operand is wanted, and leave it wanted. -/
def openingWords : List String :=
  ["SELECT", "DISTINCT", "NOT", "IIF", "TRANSFORM"]

theorem passes_opening {word : String} (hword : word ∈ openingWords) :
    Passes [.keyword word] true true := by
  have hwords : ∀ word ∈ openingWords, reservedWords.contains word = true ∧
      constant? word = none ∧ keywordLeads true word = true := by
    decide
  obtain ⟨hreserved, hconstant, hleads⟩ := hwords word hword
  exact passes_keyword (fun _ => ⟨hreserved, hconstant⟩) hleads

/-- Whether an operand is wanted behind a link. -/
def Link.leads : Link → Bool
  | isNull _ => false
  | _ => true

theorem passes_link (link : Link) : Passes link.pieces false link.leads := by
  have hmark {text : String} (htext : (text.toList != [')']) = true) :
      Passes [.mark text] false true :=
    passes_mark (absurd · Bool.false_ne_true) htext
  have hnot : Passes [.keyword "NOT"] false false := passes_trailing rfl
  have hnull : Passes [.keyword "NULL"] false false := passes_trailing rfl
  cases link with
  | logical op => cases op <;> exact passes_leading rfl
  | compare op =>
    cases op with
    | ne => exact passes_unequal
    | like => exact passes_leading rfl
    | notLike => exact hnot.append (passes_leading rfl)
    | eq | lt | lte | gt | gte => exact hmark rfl
  | arithmetic op =>
    cases op with
    | mod => exact passes_leading rfl
    | add | sub | mul | div | intDiv | concat => exact hmark rfl
  | isNull negated =>
    have his : Passes [.keyword "IS"] false false := passes_trailing rfl
    cases negated with
    | false => exact his.append hnull
    | true => exact his.append (hnot.append hnull)
  | inList negated | between negated =>
    cases negated with
    | false => exact passes_leading rfl
    | true => exact hnot.append (passes_leading rfl)

theorem detaches_link (link : Link) (pieces : List Piece) : Detaches (link.pieces ++ pieces) := by
  cases link with
  | logical op => exact detaches_keyword _ _
  | compare op =>
    cases op with
    | ne => exact detaches_unequal _
    | like | notLike => exact detaches_keyword _ _
    | eq | lt | lte | gt | gte => exact detaches_mark (by decide) _
  | arithmetic op =>
    cases op with
    | mod => exact detaches_keyword _ _
    | add | sub | mul | div | intDiv | concat => exact detaches_mark (by decide) _
  | isNull negated | inList negated | between negated =>
    cases negated <;> exact detaches_keyword _ _

theorem passes_join (kind : JoinKind) : Passes (joinPieces kind) false true := by
  have hjoin : Passes [.keyword "JOIN"] false true := passes_leading rfl
  have houter : Passes [.optional (.keyword "OUTER")] false false := (passes_trailing rfl).optional
  cases kind with
  | inner => exact (passes_trailing rfl).append hjoin
  | left | right => exact (passes_trailing rfl).append (houter.append hjoin)

theorem detaches_join (kind : JoinKind) (pieces : List Piece) :
    Detaches (joinPieces kind ++ pieces) := by
  cases kind <;> exact detaches_keyword _ _

/-! ### What stands behind an operand or around operands -/

theorem Yields.passes (h : Yields pieces before found middle) (h' : Passes pieces' middle after)
    (hdetaches : Detaches pieces') : Yields (pieces ++ pieces') before found after := by
  have hyields := h.append h'.yields hdetaches
  rwa [List.append_nil] at hyields

/-- Operands with a link or other words between them. -/
theorem Yields.linked {words : List Piece} (h : Yields pieces before found false)
    (hwords : Passes words false true) (h' : Yields pieces' true found' after)
    (hdetaches : Detaches (words ++ pieces')) :
    Yields (pieces ++ (words ++ pieces')) before (found ++ found') after :=
  h.append (hwords.trans h') hdetaches

/-- Operands with a word between them that an operand stands behind. -/
theorem Yields.worded {word : String} (h : Yields pieces before found false)
    (hleads : leadingWords.contains word = true) (h' : Yields pieces' true found' after) :
    Yields (pieces ++ .keyword word :: pieces') before (found ++ found') after :=
  h.linked (passes_leading hleads) h' (detaches_keyword word pieces')

theorem passes_alias {announced : Piece} {asName : Option Part}
    (h : Passes [announced] false false) (hasName : ∀ p, asName = some p → p.Formed) :
    Passes (aliasPieces announced asName) false false := by
  cases asName with
  | none => exact passes_nil
  | some part => exact h.append (passes_part (hasName part rfl))

theorem detaches_alias {announced : Piece} (h : ∀ part, Detaches [announced, partPiece part])
    (asName : Option Part) : Detaches (aliasPieces announced asName) := by
  cases asName with
  | none => exact detaches_nil
  | some part => exact h _

theorem passes_order (order : Option SortOrder) : Passes (orderPieces order) false false := by
  cases order with
  | none => exact passes_nil
  | some order => cases order <;> exact passes_trailing rfl

theorem detaches_order (order : Option SortOrder) : Detaches (orderPieces order) := by
  cases order with
  | none => exact detaches_nil
  | some order => exact detaches_keyword _ _

theorem passes_distinct (distinct : Bool) :
    Passes (if distinct then [.keyword "DISTINCT"] else []) true true := by
  cases distinct with
  | false => exact passes_nil
  | true => exact passes_opening (by simp [openingWords])

theorem passes_top (top : Option Nat) : Passes (topPieces top) true true := by
  have htop : Passes [.keyword "TOP"] true false :=
    passes_keyword (fun _ => by decide) (by decide)
  cases top with
  | none => exact passes_nil
  | some rows => exact htop.append (passes_rowCount rows)

/-- Parentheses want an operand inside, whatever is wanted before them, and none behind. -/
theorem Yields.enclosed (h : Yields pieces true found after) (before : Bool) :
    Yields (enclosed pieces) before found false := by
  have hopen : Passes [.mark "("] before true := passes_mark (fun _ => by decide) (by decide)
  have hclose : Passes [.mark ")"] after false := passes_mark (fun _ => by decide) (by decide)
  exact hopen.trans (h.passes hclose (detaches_mark (by decide) []))

/-- The name of a function is passed over, since a parenthesis follows it. -/
theorem yields_call {callee : String} (hcallee : IsName callee)
    (h : Yields pieces true found after) :
    Yields (.token (.word callee.toList) :: enclosed pieces) true found false := by
  intro written rest hspells hrest
  cases hspells with
  | @cons _ _ first second hname hargs =>
    obtain rfl : first = [.word callee.toList] := hname
    have hhead : (second ++ rest).head? = some (.mark ['(']) := by
      cases hargs with
      | cons hopen _ =>
        obtain rfl := hopen
        rfl
    have hformed : Part.Formed ⟨callee, false⟩ := hcallee
    have hliteral : (Token.word callee.toList).literal? = none := literal?_partToken hformed
    have hpart : (Token.word callee.toList).part? = some ⟨callee, false⟩ := part?_partToken hformed
    rw [List.append_assoc, List.singleton_append, operandsFrom_of_none]
    · exact h.enclosed _ hargs hrest
    · intro _
      simp [operandAt?, hhead, hliteral, hpart]

/-! ### Lists and clauses -/

section

variable {opening : List Piece} {nodes : List Node} {written : Node → List Piece}
  {operandsOf : Node → List Node}

theorem yields_separated (hne : nodes ≠ [])
    (h : ∀ node ∈ nodes, Yields (written node) true (operandsOf node) false) :
    Yields (separated "," (nodes.map written)) true (nodes.flatMap operandsOf) false := by
  induction nodes with
  | nil => exact absurd rfl hne
  | cons node nodes ih =>
    have hnode := h node List.mem_cons_self
    cases nodes with
    | nil => simpa [separated] using hnode
    | cons next nodes =>
      have hcomma : Passes [.mark ","] false true :=
        passes_mark (absurd · Bool.false_ne_true) (by decide)
      rw [separated_cons, List.flatMap_cons]
      exact hnode.linked hcomma
        (ih (List.cons_ne_nil _ _) fun other hother => h other (List.mem_cons_of_mem _ hother))
        (detaches_mark (by decide) _)

theorem yields_listPieces (hopening : Passes opening false true)
    (h : ∀ node ∈ nodes, Yields (written node) true (operandsOf node) false) :
    Yields (listPieces opening (nodes.map written)) false (nodes.flatMap operandsOf) false := by
  cases nodes with
  | nil => exact passes_nil.yields
  | cons node nodes => exact hopening.trans (yields_separated (List.cons_ne_nil _ _) h)

theorem detaches_listPieces (word : String) (more : List Piece) (items : List (List Piece)) :
    Detaches (listPieces (.keyword word :: more) items) := by
  cases items with
  | nil => exact detaches_nil
  | cons item items => exact detaches_keyword _ _

theorem yields_clausePieces {opens : Piece} {clause : Option Node}
    (hopens : Passes [opens] false true)
    (h : ∀ node ∈ clause.toList, Yields node.pieces true (operandsOf node) false) :
    Yields (clausePieces opens clause) false (clause.toList.flatMap operandsOf) false := by
  cases clause with
  | none => exact passes_nil.yields
  | some node =>
    rw [Option.toList_some, List.flatMap_singleton]
    exact hopens.trans (h node List.mem_cons_self)

theorem detaches_clausePieces (word : String) (clause : Option Node) :
    Detaches (clausePieces (.keyword word) clause) := by
  cases clause with
  | none => exact detaches_nil
  | some node => exact detaches_keyword _ _

end

/-- What begins with `SELECT` yields the same wherever it stands. -/
theorem Yields.select (h : Yields (.keyword "SELECT" :: pieces) true found after) (before : Bool) :
    Yields (.keyword "SELECT" :: pieces) before found after := by
  have hselect (before : Bool) : Passes [.keyword "SELECT"] before true := by
    cases before with
    | false => exact passes_leading rfl
    | true => exact passes_opening List.mem_cons_self
  intro written rest hspells hrest
  rw [← h hspells hrest]
  cases hspells with
  | cons hfits hspells =>
    have hfirst := spells_single_iff.mpr hfits
    rw [List.append_assoc, hselect before _ hfirst, hselect true _ hfirst]

/-! ### Trees -/

theorem exists_pieces_of_select {select : Node} (h : Formed .select select) :
    ∃ pieces, select.pieces = .keyword "SELECT" :: pieces := by
  cases h with
  | select => exact ⟨_, pieces_query _⟩

/-- A `SELECT` yields what its clauses do, one after another. -/
theorem yields_query {clauses : Clauses Node} {operandsOf : Node → List Node}
    (hne : clauses.items ≠ [])
    (h : ∀ node ∈ clauses.nodes, Yields node.pieces true (operandsOf node) false) :
    Yields (query clauses).pieces true (clauses.nodes.flatMap operandsOf) false := by
  have hselect : Passes [.keyword "SELECT"] true true := passes_opening List.mem_cons_self
  have hby {word : String} (hword : leadingWords.contains word = false) :
      Passes [.keyword word, .keyword "BY"] false true :=
    (passes_trailing hword).append (passes_leading rfl)
  simp only [Clauses.nodes, List.forall_mem_append] at h
  obtain ⟨⟨⟨⟨⟨hitems, htables⟩, hcondition⟩, hgroups⟩, hhaving⟩, horders⟩ := h
  -- every clause behind the items begins with a keyword, if it is there
  have hfifth := detaches_listPieces "ORDER" [.keyword "BY"] (clauses.orders.map pieces)
  have hfourth := (detaches_clausePieces "HAVING" clauses.having).append hfifth
  have hthird :=
    (detaches_listPieces "GROUP" [.keyword "BY"] (clauses.groups.map pieces)).append hfourth
  have hsecond := (detaches_clausePieces "WHERE" clauses.condition).append hthird
  have hfirst := (detaches_listPieces "FROM" [] (clauses.tables.map pieces)).append hsecond
  simp only [pieces_query, Clauses.nodes, List.flatMap_append, List.append_assoc]
  refine hselect.trans ((passes_distinct _).trans ((passes_top _).trans ?_))
  refine (yields_separated hne hitems).append ?_ hfirst
  refine (yields_listPieces (passes_leading rfl) htables).append ?_ hsecond
  refine (yields_clausePieces (passes_leading rfl) hcondition).append ?_ hthird
  refine (yields_listPieces (hby rfl) hgroups).append ?_ hfourth
  refine (yields_clausePieces (passes_leading rfl) hhaving).append ?_ hfifth
  exact yields_listPieces (hby rfl) horders

/-- **What is written of a formed node yields the operands that a walk through it meets.** -/
theorem yields_of_formed {role : Role} {node : Node} (h : Formed role node) (depth : Nat) :
    Yields node.pieces true (node.walkedOperands depth) false := by
  induction h generalizing depth with
  | argument _ ih | factor _ ih | query _ ih => exact ih depth
  | logical _ _ _ _ ihleft ihright | arithmetic _ _ _ _ ihleft ihright =>
    rw [walkedOperands_two rfl rfl]
    exact (ihleft _).linked (passes_link _) (ihright _) (detaches_link _ _)
  | @compare _ _ op _ _ _ _ ihleft ihright =>
    have hop (depth : Nat) : (operator op).walkedOperands depth = [] :=
      walkedOperands_of_not rfl depth
    rw [Node.compare, walkedOperands_three rfl rfl, hop, List.nil_append]
    exact (ihleft _).linked (passes_link (.compare op)) (ihright _) (detaches_link (.compare op) _)
  | @isNull _ negated _ _ ih =>
    have hdetaches := detaches_link (.isNull negated) []
    rw [List.append_nil] at hdetaches
    rw [walkedOperands_one rfl rfl]
    exact (ih _).passes (passes_link _) hdetaches
  | inList _ _ hne _ ih ihlist =>
    rw [pieces_inList, walkedOperands_of_not rfl, children, List.flatMap_cons]
    have hlist := yields_separated hne fun item hitem => ihlist item hitem (depth + 1)
    exact (ih _).linked (passes_link _) (hlist.enclosed true) (detaches_link _ _)
  | between _ _ _ _ _ _ _ ih ihlow ihhigh =>
    rw [walkedOperands_three rfl rfl]
    exact (ih _).linked (passes_link _) ((ihlow _).worded rfl (ihhigh _)) (detaches_link _ _)
  | not _ _ ih =>
    rw [walkedOperands_one rfl rfl]
    exact (passes_opening (by simp [openingWords])).trans (ih _)
  | negate _ _ ih =>
    rw [walkedOperands_one rfl rfl]
    exact (passes_mark (fun _ => by decide) (by decide)).trans (ih _)
  | grouped _ ih | groupedTables _ ih =>
    rw [walkedOperands_one rfl rfl]
    exact (ih _).enclosed true
  | @conditional condition thenValue elseValue _ _ _ ihcondition ihthen ihelse =>
    rw [walkedOperands_of_not rfl, children]
    have hargs : ∀ arg ∈ [condition, thenValue, elseValue],
        Yields arg.pieces true (arg.walkedOperands (depth + 1)) false := by
      simp [ihcondition, ihthen, ihelse]
    exact (passes_opening (by simp [openingWords])).trans
      ((yields_separated (List.cons_ne_nil _ _) hargs).enclosed true)
  | @call callee args hcallee _ ih =>
    rw [pieces_call, walkedOperands_of_not rfl, children]
    cases args with
    | nil => exact yields_call hcallee passes_nil.yields
    | cons arg args =>
      exact yields_call hcallee
        (yields_separated (List.cons_ne_nil _ _) fun arg harg => ih arg harg (depth + 1))
  | literal =>
    rw [walkedOperands_leaf rfl rfl]
    exact yields_literal _
  | identifier hne hnames =>
    rw [walkedOperands_leaf rfl rfl]
    exact yields_name hne hnames
  | star | itemStar =>
    rw [walkedOperands_leaf rfl rfl]
    exact yields_star
  | tableRef hne hnames hasName =>
    rw [walkedOperands_one rfl rfl, walkedOperands_leaf rfl rfl]
    exact (yields_name hne hnames).passes
      (passes_alias (passes_trailing rfl).optional fun p hp => (hasName p hp).1)
      (detaches_alias (fun part => (detaches_keyword _ []).optional (detaches_part part [])) _)
  | @join _ _ _ kind _ _ _ ihleft ihright ihon =>
    rw [walkedOperands_three rfl rfl]
    exact (ihleft _).linked (passes_join kind) ((ihright _).worded rfl (ihon _))
      (detaches_join kind _)
  | qualifiedStar hne hnames =>
    rw [walkedOperands_leaf rfl rfl]
    exact yields_qualifiedStar hne hnames
  | selectItem _ hasName ih =>
    rw [walkedOperands_one rfl rfl]
    exact (ih _).passes (passes_alias (passes_trailing rfl) hasName)
      (detaches_alias (fun _ => detaches_keyword _ _) _)
  | orderItem _ ih =>
    rw [walkedOperands_one rfl rfl]
    exact (ih _).passes (passes_order _) (detaches_order _)
  | @select clauses _ hne _ _ _ _ _ _ ihitems ihtables ihcondition ihgroups ihhaving ihorders =>
    rw [walkedOperands_of_not rfl, children]
    refine yields_query hne fun node hnode => ?_
    simp only [Clauses.nodes, List.mem_append] at hnode
    rcases hnode with ((((h | h) | h) | h) | h) | h
    · exact ihitems node h _
    · exact ihtables node h _
    · exact ihcondition node h _
    · exact ihgroups node h _
    · exact ihhaving node h _
    · exact ihorders node h _
  | crosstab _ hselect _ ihvalue ihselect ihpivot =>
    rw [walkedOperands_three rfl rfl]
    obtain ⟨pieces, hpieces⟩ := exists_pieces_of_select hselect
    have hyields := ihselect (depth + 1)
    rw [hpieces] at hyields
    rw [Node.pieces, hpieces]
    exact (passes_opening (by simp [openingWords])).trans
      ((ihvalue _).append ((hyields.select false).worded rfl (ihpivot _)) (detaches_keyword _ _))

/-! ### Statements that are read -/

/-- A statement may end with a semicolon, and nothing follows that. -/
theorem operandsFrom_end {written : List Token} (h : Spells [endPiece] written) :
    Detached written ∧ operandsFrom false written = [] := by
  rcases spells_single_iff.mp h with rfl | rfl
  · exact ⟨⟨nofun, nofun⟩, operandsFrom_nil false⟩
  · refine ⟨⟨by simp, by simp⟩, ?_⟩
    rw [operandsFrom_of_none (absurd · Bool.false_ne_true), operandsFrom_nil]

/-- A walk through a tree that is read meets the operands of the text. -/
theorem walkedOperands_of_read {limit : Nat} {s : List Char} {node : Node}
    (hreturns : returnsPaired s = true) (h : read limit s = .ok node) (depth : Nat) :
    node.walkedOperands depth = operands (tokens s) := by
  obtain ⟨written, last, htokens, hspells, hlast⟩ :=
    spells_append_iff.mp (spells_of_read hreturns h)
  obtain ⟨hdetached, hnone⟩ := operandsFrom_end hlast
  rw [operands, htokens, yields_of_formed (formed_of_read h) depth hspells hdetached, hnone,
    List.append_nil]

end Grammar

open Grammar Node

/-- **A walk goes to every node that a field of the tree holds, once, to its depth and in the order
of the fields. Where every carriage return stands before a line feed, the operands that it meets in
the tree of a parsed text are the operands of the text, in their order.** -/
theorem walk_in_text_order :
    (∀ (tree : Node) (depth : Nat), tree.Traverses depth tree.paths (tree.walk depth)) ∧
      ∀ {source : String} {limit : Nat} {tree : Node}, returnsPaired source.toList = true →
        parse source limit = .ok tree → ∀ depth,
          ((tree.walk depth).map Prod.snd).filter isOperand = operands (tokens source.toList) :=
  ⟨traverses_walk, fun hreturns hparse depth =>
    walkedOperands_of_read hreturns (read_of_parse hparse) depth⟩

/-- `TRANSFORM Sum(a) SELECT TOP 3 t.*, [b c] AS x FROM t AS u LEFT JOIN v ON u.b = 'y' WHERE d IS
NOT NULL PIVOT e`. -/
def totals : Node :=
  .crosstab (.call "Sum" [name "a"])
    (.query ⟨false, some 3,
      [.qualifiedStar [⟨"t", false⟩], .selectItem (.identifier [⟨"b c", true⟩]) (some ⟨"x", false⟩)],
      [.join (.tableRef (name "t") (some ⟨"u", false⟩)) .left (.tableRef (name "v") none)
        (.compare (name "u.b") .eq (string "y"))],
      some (.isNull (name "d") true), [], none, []⟩)
    (name "e")

/-- The same statement with a comment and line breaks in it. -/
def totalsText : String :=
  "TRANSFORM Sum(a) SELECT TOP 3 t.*, [b c] AS x -- y\r\nFROM t u LEFT JOIN v ON u.b = 'y'
WHERE d IS NOT NULL PIVOT e;"

theorem walk_in_text_order_totals :
    totals.Traverses 1 totals.paths (totals.walk 1) ∧ returnsPaired totalsText.toList = true ∧
      parse totalsText 20 = .ok totals ∧
      ((totals.walk 1).map Prod.snd).filter isOperand = operands (tokens totalsText.toList) ∧
      operands (tokens totalsText.toList) =
        [name "a", .qualifiedStar [⟨"t", false⟩], .identifier [⟨"b c", true⟩], name "t", name "v",
          .identifier [⟨"u", false⟩, ⟨"b", false⟩], string "y", name "d", name "e"] := by
  have hfound : operands (tokens totalsText.toList) =
      [name "a", .qualifiedStar [⟨"t", false⟩], .identifier [⟨"b c", true⟩], name "t", name "v",
        .identifier [⟨"u", false⟩, ⟨"b", false⟩], string "y", name "d", name "e"] := by
    cbv
  have hreturns : returnsPaired totalsText.toList = true := by cbv
  have hparse : parse totalsText 20 = .ok totals := by cbv
  exact ⟨walk_in_text_order.1 totals 1, hreturns, hparse,
    walk_in_text_order.2 hreturns hparse 1, hfound⟩

end JetSql
