/-
The source text of a tree, written in one way: keywords in upper case, one blank around operators
and after commas, nothing where nothing is needed.

`Node.source` writes the tree as it stands. It adds no parentheses, so the text means the tree only
where every operator has the operands that its rank allows.
-/

import JetSql.Grammar.Link
import JetSql.Proofs.Grammar.Leaf

namespace JetSql

namespace Grammar.Link

/-- A link as it is written, with a blank before it. -/
def source : Link → List Char
  | logical op => ' ' :: op.symbol.toList
  | compare op => ' ' :: op.symbol.toList
  | arithmetic op => ' ' :: op.symbol.toList
  | isNull false => " IS NULL".toList
  | isNull true => " IS NOT NULL".toList
  | inList false => " IN".toList
  | inList true => " NOT IN".toList
  | between false => " BETWEEN".toList
  | between true => " NOT BETWEEN".toList

theorem source_logical (op : LogicOp) : (logical op).source = ' ' :: op.symbol.toList := rfl

theorem source_compare (op : CompareOp) : (compare op).source = ' ' :: op.symbol.toList := rfl

theorem source_arithmetic (op : ArithOp) : (arithmetic op).source = ' ' :: op.symbol.toList := rfl

theorem source_isNull (negated : Bool) :
    (isNull negated).source = (if negated then " IS NOT NULL" else " IS NULL").toList := by
  cases negated <;> rfl

theorem source_inList (negated : Bool) :
    (inList negated).source = (if negated then " NOT IN" else " IN").toList := by
  cases negated <;> rfl

theorem source_between (negated : Bool) :
    (between negated).source = (if negated then " NOT BETWEEN" else " BETWEEN").toList := by
  cases negated <;> rfl

/-- A link that a blank follows is read back. -/
theorem read?_source (link : Link) (rest : List Char) :
    read? (link.source ++ ' ' :: rest) = some (link, ' ' :: rest) := by
  cases link with
  | logical op | compare op | arithmetic op => cases op <;> rfl
  | isNull negated | inList negated | between negated => cases negated <;> rfl

end Grammar.Link

open Grammar

/-- Texts with commas between them. -/
def commas (texts : List (List Char)) : List Char :=
  [',', ' '].intercalate texts

theorem intercalate_map_cons {α : Type} (mark : List Char) (text : α → List Char) (v : α)
    (values : List α) : mark.intercalate ((v :: values).map text) =
      text v ++ values.flatMap fun v => mark ++ text v := by
  induction values generalizing v with
  | nil => simp
  | cons w values ih =>
    rw [List.map_cons, List.map_cons, List.intercalate_cons_cons, ← List.map_cons, ih]
    simp

/-- A dotted name as it is written. -/
def partsSource (names : List Part) : List Char :=
  ['.'].intercalate (names.map Part.source)

/-- An alias as it is written, with a blank before it, or nothing. -/
def aliasSource : Option Part → List Char
  | none => []
  | some part => " AS ".toList ++ part.source

/-- A row count as it is written, with a blank before it, or nothing. -/
def topSource : Option Nat → List Char
  | none => []
  | some rows => " TOP ".toList ++ Nat.toDigits 10 rows

/-- A sort order as it is written, with a blank before it, or nothing. -/
def orderSource : Option SortOrder → List Char
  | none => []
  | some order => ' ' :: order.symbol.toList

/-- A clause that lists texts, or nothing if there are none. -/
def listSource (opening : String) (texts : List (List Char)) : List Char :=
  if texts = [] then [] else opening.toList ++ ' ' :: commas texts

namespace Node

/-- A minus sign that stands before another one is kept from it by a blank; two of them in a row
would open a comment. -/
def signSource : Node → List Char
  | negate _ => ['-', ' ']
  | _ => ['-']

mutual

/-- A tree as it is written. -/
def source : Node → List Char
  | query clauses => clausesSource clauses
  | selectItem expr asName => source expr ++ aliasSource asName
  | tableRef table asName => source table ++ aliasSource asName
  | join left kind right on =>
    source left ++ ' ' :: (kind.symbol.toList ++ ' ' :: (source right ++ " ON ".toList ++ source on))
  | orderItem expr order => source expr ++ orderSource order
  | logical left op right => source left ++ ((Link.logical op).source ++ ' ' :: source right)
  | not expr => "NOT ".toList ++ source expr
  | comparison left op right => source left ++ ' ' :: (source op ++ ' ' :: source right)
  | operator op => op.symbol.toList
  | isNull expr negated => source expr ++ (Link.isNull negated).source
  | inList expr list negated =>
    source expr ++ ((Link.inList negated).source ++ ' ' :: '(' :: (commas (sources list) ++ [')']))
  | between expr low high negated =>
    source expr ++ ((Link.between negated).source ++
      ' ' :: (source low ++ " AND ".toList ++ source high))
  | arithmetic left op right => source left ++ ((Link.arithmetic op).source ++ ' ' :: source right)
  | negate expr => signSource expr ++ source expr
  | conditional condition thenValue elseValue =>
    "IIF(".toList ++ (commas [source condition, source thenValue, source elseValue] ++ [')'])
  | call callee args => callee.toList ++ '(' :: (commas (sources args) ++ [')'])
  | grouped expr => '(' :: (source expr ++ [')'])
  | identifier names => partsSource names
  | literal value => value.source
  | star => ['*']
  | qualifiedStar names => partsSource names ++ ['.', '*']
  | crosstab value select pivot =>
    "TRANSFORM ".toList ++ (source value ++ ' ' :: (source select ++ " PIVOT ".toList ++ source pivot))

/-- The nodes of a list as they are written. -/
def sources : List Node → List (List Char)
  | [] => []
  | node :: nodes => source node :: sources nodes

/-- A clause that may be absent. -/
def clauseSource (opening : String) : Option Node → List Char
  | none => []
  | some node => opening.toList ++ ' ' :: source node

/-- The clauses of a `SELECT` as they are written. -/
def clausesSource : Clauses Node → List Char
  | ⟨distinct, top, items, tables, condition, groups, having, orders⟩ =>
    (if distinct then "SELECT DISTINCT".toList else "SELECT".toList) ++ (topSource top ++
      ' ' :: (commas (sources items) ++ (listSource " FROM" (sources tables) ++
        (clauseSource " WHERE" condition ++ (listSource " GROUP BY" (sources groups) ++
          (clauseSource " HAVING" having ++ listSource " ORDER BY" (sources orders)))))))

end

theorem sources_eq_map (nodes : List Node) : sources nodes = nodes.map source := by
  induction nodes with
  | nil => rfl
  | cons node nodes ih => rw [sources, ih, List.map_cons]

section

variable {left right expr low high on table value select pivot condition thenValue elseValue : Node}
  {list args : List Node} {negated : Bool}

theorem source_query (clauses : Clauses Node) : (query clauses).source =
    (if clauses.distinct then "SELECT DISTINCT".toList else "SELECT".toList) ++
      (topSource clauses.top ++ ' ' :: (commas (clauses.items.map source) ++
        (listSource " FROM" (clauses.tables.map source) ++
          (clauseSource " WHERE" clauses.condition ++
            (listSource " GROUP BY" (clauses.groups.map source) ++
              (clauseSource " HAVING" clauses.having ++
                listSource " ORDER BY" (clauses.orders.map source))))))) := by
  simp only [← sources_eq_map]
  cases clauses
  rfl

theorem source_selectItem (asName : Option Part) :
    (selectItem expr asName).source = expr.source ++ aliasSource asName := rfl

theorem source_tableRef (asName : Option Part) :
    (tableRef table asName).source = table.source ++ aliasSource asName := rfl

theorem source_join (kind : JoinKind) : (join left kind right on).source =
    left.source ++ ' ' :: (kind.symbol.toList ++ ' ' :: (right.source ++ " ON ".toList ++ on.source)) :=
  rfl

theorem source_orderItem (order : Option SortOrder) :
    (orderItem expr order).source = expr.source ++ orderSource order := rfl

theorem source_logical (op : LogicOp) : (logical left op right).source =
    left.source ++ ((Link.logical op).source ++ ' ' :: right.source) := rfl

theorem source_not : (not expr).source = "NOT ".toList ++ expr.source := rfl

theorem source_compare (op : CompareOp) : (compare left op right).source =
    left.source ++ ((Link.compare op).source ++ ' ' :: right.source) := rfl

theorem source_isNull : (isNull expr negated).source =
    expr.source ++ (Link.isNull negated).source := rfl

theorem source_inList : (inList expr list negated).source =
    expr.source ++ ((Link.inList negated).source ++
      ' ' :: '(' :: (commas (list.map source) ++ [')'])) := by
  rw [← sources_eq_map]
  rfl

theorem source_between : (between expr low high negated).source =
    expr.source ++ ((Link.between negated).source ++
      ' ' :: (low.source ++ " AND ".toList ++ high.source)) := rfl

theorem source_arithmetic (op : ArithOp) : (arithmetic left op right).source =
    left.source ++ ((Link.arithmetic op).source ++ ' ' :: right.source) := rfl

theorem source_negate : (negate expr).source = signSource expr ++ expr.source := rfl

theorem source_conditional : (conditional condition thenValue elseValue).source =
    "IIF(".toList ++
      (commas ([condition, thenValue, elseValue].map source) ++ [')']) := rfl

theorem source_call (callee : String) : (call callee args).source =
    callee.toList ++ '(' :: (commas (args.map source) ++ [')']) := by
  rw [← sources_eq_map]
  rfl

theorem source_grouped : (grouped expr).source = '(' :: (expr.source ++ [')']) := rfl

theorem source_identifier (names : List Part) : (identifier names).source = partsSource names := rfl

theorem source_qualifiedStar (names : List Part) :
    (qualifiedStar names).source = partsSource names ++ ['.', '*'] := rfl

theorem source_crosstab : (crosstab value select pivot).source =
    "TRANSFORM ".toList ++
      (value.source ++ ' ' :: (select.source ++ " PIVOT ".toList ++ pivot.source)) := rfl

end

end Node

end JetSql
