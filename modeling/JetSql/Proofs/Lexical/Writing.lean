/-
A tree written out in tokens.

`Node.pieces` writes a tree, each construct in its place and each name and literal as the tree has
it. A `Piece` is one thing that is written, together with what the writer is free in: the case of a
keyword, a word that may be left out, the sign for "not equal", zeros before a row count, blanks
inside the signs of a date. `Spells pieces tokens` says that the tokens are the pieces, one after
another, with nothing before, between or after them.
-/

import JetSql.Proofs.Lexical.Token

namespace JetSql

namespace Grammar

/-! ### Pieces -/

/-- One thing that is written. -/
inductive Piece where
  /-- A token as it stands. -/
  | token (tok : Token)
  /-- A keyword, given in upper case. -/
  | keyword (word : String)
  /-- What may as well be left out. -/
  | optional (piece : Piece)
  /-- The sign for "not equal". -/
  | unequal
  /-- A row count. -/
  | rowCount (rows : Nat)
  /-- A date, given without blanks at its ends. -/
  | date (text : String)

/-- The ways to write a piece. -/
def Piece.Fits : Piece → List Token → Prop
  | token tok, written => written = [tok]
  | keyword word, written => ∃ w, written = [.word w] ∧ w.map Char.toUpper = word.toList
  | optional piece, written => written = [] ∨ piece.Fits written
  | unequal, written => written = [.mark ['<', '>']] ∨ written = [.mark ['!', '=']]
  | rowCount rows, written =>
    ∃ zeros, written = [.number (List.replicate zeros '0' ++ Nat.toDigits 10 rows)]
  | date text, written => ∃ body, written = [.date body] ∧ Text.trim body = text.toList

/-- The ways to write pieces one after another. -/
inductive Spells : List Piece → List Token → Prop where
  | nil : Spells [] []
  | cons {piece : Piece} {pieces : List Piece} {first rest : List Token} :
      piece.Fits first → Spells pieces rest → Spells (piece :: pieces) (first ++ rest)

theorem Spells.append {pieces pieces' : List Piece} {written written' : List Token}
    (h : Spells pieces written) (h' : Spells pieces' written') :
    Spells (pieces ++ pieces') (written ++ written') := by
  induction h with
  | nil => exact h'
  | cons hfits _ ih =>
    rw [List.cons_append, List.append_assoc]
    exact .cons hfits ih

/-- What is written as pieces one after another is cut where the pieces are. -/
theorem spells_append_iff {pieces pieces' : List Piece} {written : List Token} :
    Spells (pieces ++ pieces') written ↔
      ∃ first second, written = first ++ second ∧ Spells pieces first ∧ Spells pieces' second := by
  constructor
  · intro h
    induction pieces generalizing written with
    | nil => exact ⟨[], written, rfl, .nil, h⟩
    | cons piece pieces ih =>
      cases h with
      | cons hfits hrest =>
        obtain ⟨first, second, rfl, hfirst, hsecond⟩ := ih hrest
        exact ⟨_, second, (List.append_assoc ..).symm, .cons hfits hfirst, hsecond⟩
  · rintro ⟨first, second, rfl, hfirst, hsecond⟩
    exact hfirst.append hsecond

theorem spells_single_iff {piece : Piece} {written : List Token} :
    Spells [piece] written ↔ piece.Fits written := by
  constructor
  · intro h
    cases h with
    | cons hfits hnil =>
      cases hnil
      rwa [List.append_nil]
  · intro h
    simpa using Spells.cons h .nil

/-- A mark. -/
def Piece.mark (text : String) : Piece :=
  .token (.mark text.toList)

/-- Pieces in parentheses. -/
def enclosed (pieces : List Piece) : List Piece :=
  .mark "(" :: (pieces ++ [.mark ")"])

/-- Items with a mark between them. -/
def separated (mark : String) (items : List (List Piece)) : List Piece :=
  [Piece.mark mark].intercalate items

theorem separated_cons {mark : String} {α : Type} (written : α → List Piece) (value next : α)
    (values : List α) :
    separated mark ((value :: next :: values).map written) =
      written value ++ ([.mark mark] ++ separated mark ((next :: values).map written)) := by
  simp [separated, List.intercalate_cons_cons]

/-! ### Leaves -/

/-- A part of a name. -/
def partPiece : Part → Piece
  | ⟨name, true⟩ => .token (.bracketed name.toList)
  | ⟨name, false⟩ => .token (.word name.toList)

/-- A dotted name. -/
def namePieces (names : List Part) : List Piece :=
  separated "." (names.map fun part => [partPiece part])

/-- An alias, if there is one, after the word that announces it. -/
def aliasPieces (announced : Piece) : Option Part → List Piece
  | none => []
  | some part => [announced, partPiece part]

/-- A literal. -/
def literalPiece : Literal → Piece
  | .string value quote => .token (.string quote value.toList)
  | .number text => .token (.number text.toList)
  | .bool true => .keyword "TRUE"
  | .bool false => .keyword "FALSE"
  | .null => .keyword "NULL"
  | .date text => .date text

/-- A comparison operator. -/
def comparePieces : CompareOp → List Piece
  | .ne => [.unequal]
  | .like => [.keyword "LIKE"]
  | .notLike => [.keyword "NOT", .keyword "LIKE"]
  | op => [.mark op.symbol]

/-- A link. -/
def Link.pieces : Link → List Piece
  | logical op => [.keyword op.symbol]
  | compare op => comparePieces op
  | arithmetic .mod => [.keyword "MOD"]
  | arithmetic op => [.mark op.symbol]
  | isNull false => [.keyword "IS", .keyword "NULL"]
  | isNull true => [.keyword "IS", .keyword "NOT", .keyword "NULL"]
  | inList false => [.keyword "IN"]
  | inList true => [.keyword "NOT", .keyword "IN"]
  | between false => [.keyword "BETWEEN"]
  | between true => [.keyword "NOT", .keyword "BETWEEN"]

/-- The words of a join. -/
def joinPieces : JoinKind → List Piece
  | .inner => [.keyword "INNER", .keyword "JOIN"]
  | .left => [.keyword "LEFT", .optional (.keyword "OUTER"), .keyword "JOIN"]
  | .right => [.keyword "RIGHT", .optional (.keyword "OUTER"), .keyword "JOIN"]

/-- The limit on rows, if there is one. -/
def topPieces : Option Nat → List Piece
  | none => []
  | some rows => [.keyword "TOP", .rowCount rows]

/-- The direction of a sort, if it is given. -/
def orderPieces : Option SortOrder → List Piece
  | none => []
  | some order => [.keyword order.symbol]

/-- A clause that lists items, if there are any. -/
def listPieces (opening : List Piece) : List (List Piece) → List Piece
  | [] => []
  | items => opening ++ separated "," items

/-- The piece after which a statement ends. -/
def endPiece : Piece :=
  .optional (.mark ";")

end Grammar

/-! ### Trees -/

open Grammar

namespace Node

mutual

/-- A tree written out, in the order of the source. -/
def pieces : Node → List Piece
  | query clauses => clausesPieces clauses
  | selectItem expr asName => pieces expr ++ aliasPieces (.keyword "AS") asName
  | tableRef table asName => pieces table ++ aliasPieces (.optional (.keyword "AS")) asName
  | join left kind right on =>
    pieces left ++ (joinPieces kind ++ (pieces right ++ .keyword "ON" :: pieces on))
  | orderItem expr order => pieces expr ++ orderPieces order
  | logical left op right => pieces left ++ ((Link.logical op).pieces ++ pieces right)
  | not expr => .keyword "NOT" :: pieces expr
  | comparison left op right => pieces left ++ (pieces op ++ pieces right)
  | operator op => (Link.compare op).pieces
  | isNull expr negated => pieces expr ++ (Link.isNull negated).pieces
  | inList expr list negated =>
    pieces expr ++ ((Link.inList negated).pieces ++ enclosed (separated "," (piecesEach list)))
  | between expr low high negated =>
    pieces expr ++ ((Link.between negated).pieces ++ (pieces low ++ .keyword "AND" :: pieces high))
  | arithmetic left op right => pieces left ++ ((Link.arithmetic op).pieces ++ pieces right)
  | negate expr => .mark "-" :: pieces expr
  | conditional condition thenValue elseValue =>
    .keyword "IIF" ::
      enclosed (separated "," [pieces condition, pieces thenValue, pieces elseValue])
  | call callee args => .token (.word callee.toList) :: enclosed (separated "," (piecesEach args))
  | grouped inner => enclosed (pieces inner)
  | identifier names => namePieces names
  | literal value => [literalPiece value]
  | star => [.mark "*"]
  | qualifiedStar names => namePieces names ++ [.mark ".", .mark "*"]
  | crosstab value select pivot =>
    .keyword "TRANSFORM" :: (pieces value ++ (pieces select ++ .keyword "PIVOT" :: pieces pivot))

/-- Each of some trees written out. -/
def piecesEach : List Node → List (List Piece)
  | [] => []
  | node :: nodes => pieces node :: piecesEach nodes

/-- A clause with one tree, if it is there. -/
def clausePieces (opening : Piece) : Option Node → List Piece
  | none => []
  | some node => opening :: pieces node

/-- The clauses of a `SELECT`, each where it stands in the source. -/
def clausesPieces : Clauses Node → List Piece
  | ⟨distinct, top, items, tables, condition, groups, having, orders⟩ =>
    .keyword "SELECT" :: ((if distinct then [.keyword "DISTINCT"] else []) ++ (topPieces top ++
      (separated "," (piecesEach items) ++
      (listPieces [.keyword "FROM"] (piecesEach tables) ++
      (clausePieces (.keyword "WHERE") condition ++
      (listPieces [.keyword "GROUP", .keyword "BY"] (piecesEach groups) ++
      (clausePieces (.keyword "HAVING") having ++
      listPieces [.keyword "ORDER", .keyword "BY"] (piecesEach orders))))))))

end

theorem piecesEach_eq_map (nodes : List Node) : piecesEach nodes = nodes.map pieces := by
  induction nodes with
  | nil => rfl
  | cons node nodes ih => rw [piecesEach, ih, List.map_cons]

theorem pieces_inList (expr : Node) (list : List Node) (negated : Bool) :
    (inList expr list negated).pieces =
      expr.pieces ++ ((Link.inList negated).pieces ++ enclosed (separated "," (list.map pieces))) := by
  rw [← piecesEach_eq_map]
  rfl

theorem pieces_call (callee : String) (args : List Node) :
    (call callee args).pieces =
      .token (.word callee.toList) :: enclosed (separated "," (args.map pieces)) := by
  rw [← piecesEach_eq_map]
  rfl

theorem pieces_query (clauses : Clauses Node) :
    (query clauses).pieces =
      .keyword "SELECT" :: ((if clauses.distinct then [.keyword "DISTINCT"] else []) ++
        (topPieces clauses.top ++ (separated "," (clauses.items.map pieces) ++
        (listPieces [.keyword "FROM"] (clauses.tables.map pieces) ++
        (clausePieces (.keyword "WHERE") clauses.condition ++
        (listPieces [.keyword "GROUP", .keyword "BY"] (clauses.groups.map pieces) ++
        (clausePieces (.keyword "HAVING") clauses.having ++
        listPieces [.keyword "ORDER", .keyword "BY"] (clauses.orders.map pieces)))))))) := by
  simp only [← piecesEach_eq_map]
  cases clauses
  rfl

end Node

end JetSql
