/-
The tree of a text accounts for its tokens.

Writing out the tree that is read from a text gives the tokens of the text again, each in its place.
So nothing that stands in the text is passed over: what the grammar tries and gives up leaves the
text as it was, and whatever it takes goes into the tree. The proof follows a derivation from place
to place. A chain, a link and joins go on from what stands to their left, so what is written of them
is written after that.

* **`spells_of_parse`:** the tokens of a parsed text are the pieces of its tree, and perhaps a
  semicolon.
-/

import JetSql.Proofs.Lexical.Reading
import Mathlib

namespace JetSql.Grammar

open Reader Node

variable {s middle rest : List Char} {b : Nat} {pieces : List Piece} {node : Node}

/-! ### Parentheses, lists and clauses -/

theorem Covers.enclosed {start stop : List Char} (h : Covers pieces start stop)
    (hopen : symbol "(" s = .ok () start) (hclose : symbol ")" stop = .ok () rest) :
    Covers (enclosed pieces) s rest :=
  (takes_symbol rfl (by decide) s () start hopen).trans
    (h.trans (takes_symbol rfl (by decide) stop () rest hclose))

section Clauses

variable {item : List Char → Node → List Char → Prop} {opening : Reader Unit}
  (hitem : ∀ s node rest, item s node rest → Covers node.pieces s rest)
include hitem

theorem Listed.covers_nodes {nodes : List Node} (h : Listed (symbol ",") item s nodes rest) :
    Covers (separated "," (nodes.map Node.pieces)) s rest :=
  h.covers (takes_symbol rfl (by decide)) hitem

theorem Clause.covers {clause : Option Node} {opens : Piece} (h : Clause opening item s clause rest)
    (hopening : opening.Takes fun _ => [opens]) : Covers (clausePieces opens clause) s rest := by
  cases h with
  | absent => exact covers_nil s
  | present hopens h => exact (hopening _ _ _ hopens).trans (hitem _ _ _ h)

theorem ListClause.covers {nodes : List Node} {opens : List Piece}
    (h : ListClause opening item s nodes rest) (hopening : opening.Takes fun _ => opens) :
    Covers (listPieces opens (nodes.map Node.pieces)) s rest := by
  cases h with
  | absent => exact covers_nil s
  | present hopens h =>
    have hcovers := (hopening _ _ _ hopens).trans (h.covers_nodes hitem)
    cases nodes with
    | nil => exact absurd rfl h.ne_nil
    | cons node nodes => exact hcovers

end Clauses

/-- No item of a select list begins with a point, so a row count before it is a whole number. -/
theorem head?_ne_point_of_selectItem (h : Derives .selectItem b s node rest) :
    s.head? ≠ some '.' := by
  intro hhead
  obtain ⟨after, rfl⟩ := List.head?_eq_some_iff.mp hhead
  have hskip : skipSpacing ('.' :: after) = '.' :: after := skipSpacing_cons rfl (by decide) after
  cases h with
  | itemStar hstar =>
    rw [symbol_eq_ok, hskip] at hstar
    cases hstar
  | qualifiedStar hparts _ =>
    rcases cases_of_parts hparts with ⟨t, ht⟩ | ⟨w, after, hname, -⟩
    · rw [hskip] at ht
      cases ht
    · have hword := head?_of_name hname
      rw [hskip, List.head?_cons, Option.any_some] at hword
      exact absurd hword (by decide)
  | selectItem hexpr _ =>
    cases hexpr with
    | operand hleading _ =>
      have hopens := head?_of_leading hleading
      rw [hskip, List.head?_cons, Option.any_some] at hopens
      exact absurd hopens (by decide)

theorem head?_ne_point_of_items {items : List Char → Node → List Char → Prop} {nodes : List Node}
    (h : Listed (symbol ",") items s nodes rest)
    (hitem : ∀ s node rest, items s node rest → Derives .selectItem b s node rest) :
    s.head? ≠ some '.' := by
  cases h with
  | last h | cons h _ _ => exact head?_ne_point_of_selectItem (hitem _ _ _ h)

theorem covers_top {top : Option Nat}
    (h : Reader.optional (keyword "TOP" *> rowCount) s = .ok top rest)
    (hpoint : rest.head? ≠ some '.') : Covers (topPieces top) s rest := by
  cases top with
  | none =>
    obtain ⟨-, rfl⟩ := optional_eq_none.mp h
    exact covers_nil s
  | some rows =>
    obtain ⟨⟨⟩, start, htop, hrows⟩ := seqRight_eq_ok.mp (optional_eq_some.mp h)
    exact (takes_keyword (by decide) _ _ _ htop).trans (covers_rowCount hrows hpoint)

/-! ### Phrases -/

/-- The text of a phrase is what is written of the node that the phrase makes; where it goes on from
a left operand, what is written of the node after that operand. The text of a link is read before the
phrase that completes it. -/
def Phrase.Accounts : Phrase → List Char → Node → List Char → Prop
  | .chain _ left, s, node, rest | .joins left, s, node, rest =>
    ∃ pieces, node.pieces = left.pieces ++ pieces ∧ Covers pieces s rest
  | .complete link left, s, node, rest =>
    ∃ pieces, node.pieces = left.pieces ++ (link.pieces ++ pieces) ∧ Covers pieces s rest
  | .statement, s, node, rest => Covers (node.pieces ++ [endPiece]) s rest
  | _, s, node, rest => Covers node.pieces s rest

/-- **The text of every phrase is what is written of its node.** -/
theorem accounts_of_derives {phrase : Phrase} (h : Derives phrase b s node rest) :
    phrase.Accounts s node rest := by
  have hkeyword {word : String} (hword : word.toList ≠ [] ∧ word.toList.all Char.isUpper = true)
      {s rest : List Char} (h : keyword word s = .ok () rest) : Covers [.keyword word] s rest :=
    takes_keyword hword s () rest h
  induction h with
  | operand _ _ ihleading ihchain =>
    obtain ⟨pieces, hpieces, hcovers⟩ := ihchain
    have hwhole := Covers.trans ihleading hcovers
    rwa [← hpieces] at hwhole
  | not hnot _ ih => exact ((hkeyword (by decide) hnot).trans ih).spaced
  | negate hminus _ ih => exact (covers_minus hminus).trans ih
  | grouped hopen _ hclose ih => exact Covers.enclosed ih (symbol_eq_ok.mpr hopen) hclose
  | conditional hiif hopen hargs _ hclose ih =>
    have hargs := (hargs.covers_nodes ih).enclosed hopen hclose
    exact ((hkeyword (by decide) hiif).trans hargs).spaced
  | callEmpty hname hopen hclose =>
    have hargs := (covers_nil _).enclosed hopen hclose
    exact ((takes_name _ _ _ hname).trans hargs).spaced
  | call hname hopen hargs _ hclose ih =>
    have hargs := (hargs.covers_nodes ih).enclosed hopen hclose
    have hwhole := ((takes_name _ _ _ hname).trans hargs).spaced
    change Covers (Node.pieces _) _ _
    rw [pieces_call]
    exact hwhole
  | literal h => exact (takes_literal _ _ _ h).spaced
  | identifier h => exact (takes_identifier _ _ _ h).spaced
  | star h => exact takes_symbol rfl (by decide) _ _ _ h
  | argument _ ih => exact ih
  | chainStop _ => exact ⟨[], (List.append_nil _).symm, covers_nil _⟩
  | chainLink hread _ _ _ ihcomplete ihchain =>
    obtain ⟨pieces, hjoined, hcomplete⟩ := ihcomplete
    obtain ⟨pieces', hnode, hchain⟩ := ihchain
    refine ⟨_, ?_, (covers_link hread).trans (hcomplete.trans hchain)⟩
    rw [hnode, hjoined, List.append_assoc, List.append_assoc]
  | logical _ ih | arithmetic _ ih | compare _ ih => exact ⟨_, rfl, ih⟩
  | @isNull _ _ left negated =>
    refine ⟨[], ?_, covers_nil _⟩
    rw [List.append_nil]
    rfl
  | inList hopen hlist _ hclose ih =>
    exact ⟨_, pieces_inList _ _ _, (hlist.covers_nodes ih).enclosed hopen hclose⟩
  | between _ hand _ ihlow ihhigh =>
    exact ⟨_, rfl, Covers.trans ihlow ((hkeyword (by decide) hand).trans ihhigh)⟩
  | groupedTables hopen _ hclose ih => exact (Covers.enclosed ih hopen hclose).spaced
  | tableRef htable halias =>
    exact ((takes_identifier _ _ _ htable).trans (takes_tableAlias _ _ _ halias)).spaced
  | joinsStop _ => exact ⟨[], (List.append_nil _).symm, covers_nil _⟩
  | join hread _ hon _ _ ihright ihon ihjoins =>
    obtain ⟨pieces, hnode, hjoins⟩ := ihjoins
    have hright := Covers.trans ihright ((hkeyword (by decide) hon).trans ihon)
    refine ⟨_, ?_, (covers_join hread).trans (hright.trans hjoins)⟩
    rw [hnode]
    simp [Node.pieces]
  | tables _ _ ihfactor ihjoins =>
    obtain ⟨pieces, hpieces, hcovers⟩ := ihjoins
    have hwhole := Covers.trans ihfactor hcovers
    rwa [← hpieces] at hwhole
  | itemStar h => exact (takes_symbol rfl (by decide) _ _ _ h).trans (covers_skipSpacing _)
  | qualifiedStar hparts hstar =>
    rw [exactly_eq_ok] at hstar
    subst hstar
    exact (takes_parts _ _ _ hparts).trans
      ((covers_lone rfl (by decide) _).trans (covers_lone rfl (by decide) _))
  | selectItem _ halias ih =>
    exact Covers.trans ih (takes_itemAlias _ _ _ halias)
  | orderItem _ horder ih => exact Covers.trans ih (takes_order _ _ _ horder)
  | select hselect hdistinct hflag htop hitems htables hcondition hgroups hhaving horders hitem _ _ _
      ihitems ihtables ihexprs ihorders =>
    have hpoint := head?_ne_point_of_items hitems hitem
    have hclauses := (hitems.covers_nodes ihitems).trans <|
      (htables.covers ihtables (takes_keyword (by decide))).trans <|
      (hcondition.covers ihexprs (takes_keyword (by decide))).trans <|
      (hgroups.covers ihexprs (takes_keywords "GROUP" "BY" (by decide) (by decide))).trans <|
      (hhaving.covers ihexprs (takes_keyword (by decide))).trans <|
      horders.covers ihorders (takes_keywords "ORDER" "BY" (by decide) (by decide))
    change Covers (Node.pieces _) _ _
    rw [pieces_query, hflag]
    exact (hkeyword (by decide) hselect).trans <|
      (takes_distinct _ _ _ hdistinct).trans ((covers_top htop hpoint).trans hclauses)
  | query _ ih => exact ih
  | crosstab htransform _ _ hpivot _ ihvalue ihselect ihpivot =>
    exact (hkeyword (by decide) htransform).trans
      (Covers.trans ihvalue (Covers.trans ihselect ((hkeyword (by decide) hpivot).trans ihpivot)))
  | @statement b _ _ stop _ _ _ hmark hstop ih =>
    have hend : Covers [] stop [] := by
      have hskip := covers_skipSpacing stop
      rwa [hstop] at hskip
    have hsemicolon : Covers [endPiece] _ stop :=
      (takes_symbol rfl (by decide)).omissible _ _ _ hmark
    exact Covers.trans ih (hsemicolon.trans hend)

/-- The tokens of a text that is read are the pieces of its tree, and perhaps a semicolon. -/
theorem spells_of_read {limit : Nat} (hreturns : returnsPaired s = true)
    (h : read limit s = .ok node) : Spells (node.pieces ++ [endPiece]) (tokens s) := by
  obtain ⟨-, written, hspells, htokens⟩ := accounts_of_derives (derives_of_read h) hreturns
  rwa [htokens, tokens_nil, List.append_nil]

/-- So the source that is written for a tree has the pieces of the tree for its tokens. -/
theorem spells_source (hformed : Formed .statement node) (hreturns : returnsPaired node.source = true) :
    Spells (node.pieces ++ [endPiece]) (tokens node.source) :=
  spells_of_read hreturns (read_source (node.levels + 1) hformed (Nat.le_refl _))

end JetSql.Grammar

namespace JetSql

open Grammar Node

/-- **Where every carriage return stands before a line feed, the tokens of a parsed text are the
pieces of its tree in their order, and at the end perhaps a semicolon.** -/
theorem spells_of_parse {source : String} {limit : Nat} {tree : Node}
    (hreturns : returnsPaired source.toList = true) (h : parse source limit = .ok tree) :
    Spells (tree.pieces ++ [endPiece]) (tokens source.toList) :=
  spells_of_read hreturns (read_of_parse h)

/-- `SELECT TOP 2 a FROM t AS u WHERE a <> #1/2/2024#`. -/
def filtered : Node :=
  .query ⟨false, some 2, [.selectItem (name "a") none], [.tableRef (name "t") (some ⟨"u", false⟩)],
    some (.compare (name "a") .ne (.literal (.date "1/2/2024"))), [], none, []⟩

/-- The same statement with all that a writer is free in. -/
theorem spells_of_parse_filtered :
    returnsPaired "select top 02 a from t u where a != # 1/2/2024 #;".toList = true ∧
      parse "select top 02 a from t u where a != # 1/2/2024 #;" 3 = .ok filtered ∧
      Spells (filtered.pieces ++ [endPiece])
        (tokens "select top 02 a from t u where a != # 1/2/2024 #;".toList) := by
  have hreturns : returnsPaired "select top 02 a from t u where a != # 1/2/2024 #;".toList = true := by
    decide
  have hparse : parse "select top 02 a from t u where a != # 1/2/2024 #;" 3 = .ok filtered := by
    cbv
  exact ⟨hreturns, hparse, spells_of_parse hreturns hparse⟩

end JetSql
