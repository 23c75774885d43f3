/-
Statements: one `SELECT`, or one crosstab around a `SELECT`, with an optional semicolon.

**Reading is all or nothing.** `parse` gives the whole tree or one error. A text whose parentheses
alone nest beyond the limit is refused before it is read.
-/

import JetSql.Grammar.Nesting
import JetSql.Grammar.Table

namespace JetSql.Grammar

open Reader

/-! ### Clauses -/

/-- The row count after `TOP`: digits whose value fits 64 bits. -/
def rowCount : Reader Nat := do
  spacing
  let digits ← satisfying (run1 Char.isDigit) fun digits => digitsValue digits < UInt64.size
  pure (digitsValue digits)
where
  /-- The value of decimal digits. -/
  digitsValue (digits : List Char) : Nat :=
    digits.foldl (fun value digit => 10 * value + (digit.toNat - '0'.toNat)) 0

/-- An item of a select list: a star, a name with a star, or an expression with an alias. -/
def selectItem (expr : Reader Node) : Reader Node :=
  (do
    symbol "*"
    spacing
    pure .star)
  <|> (do
    let names ← parts
    exactly ".*"
    pure (.qualifiedStar names))
  <|> (do
    let value ← expr
    let asName ← optional (keyword "AS" *> part)
    pure (.selectItem value asName))

/-- An item to sort by. -/
def orderItem (expr : Reader Node) : Reader Node := do
  let value ← expr
  let order ← optional
    ((keyword "ASC" *> pure .asc) <|> (keyword "DESC" *> pure .desc))
  pure (.orderItem value order)

/-- A list after its keywords; without them it is empty. -/
def listAfter (opening : Reader Unit) (item : Reader Node) : Reader (List Node) := do
  return (← optional (opening *> separated1 (symbol ",") item)).getD []

/-- A `SELECT` and its clauses. -/
def select (limit budget : Nat) : Reader (Clauses Node) := do
  let expr := expression limit budget
  keyword "SELECT"
  let distinct ← optional (keyword "DISTINCT")
  let top ← optional (keyword "TOP" *> rowCount)
  let items ← expecting .selectList (separated1 (symbol ",") (selectItem expr))
  let tables ← listAfter (keyword "FROM") (tables limit budget)
  let condition ← optional (keyword "WHERE" *> expr)
  let groups ← listAfter (keyword "GROUP" *> keyword "BY") expr
  let having ← optional (keyword "HAVING" *> expr)
  let orders ← listAfter (keyword "ORDER" *> keyword "BY") (orderItem expr)
  pure ⟨distinct.isSome, top, items, tables, condition, groups, having, orders⟩

/-! ### Statements -/

/-- A crosstab; all its parts are one level down. -/
def crosstab (limit budget : Nat) : Reader Node := do
  keyword "TRANSFORM"
  match budget with
  | 0 => halt (beyondLimit limit)
  | budget + 1 =>
    let value ← expression limit budget
    let clauses ← expecting .selectAfterTransform (select limit budget)
    expecting .pivot (keyword "PIVOT")
    let pivot ← expression limit budget
    pure (.crosstab value (.query clauses) pivot)

/-- A whole statement, to the end of the text. -/
def statement (limit budget : Nat) : Reader Node := do
  let node ← crosstab limit budget <|> (return .query (← select limit budget))
  let _ ← optional (symbol ";")
  spacing
  expecting .endOfStatement endOfText
  pure node

/-! ### Reading a source text -/

/-- The complaint of a miss: what should have come, or else what came. -/
def complaint (rest : List Char) : Option Expectation → String
  | some expectation => "expected " ++ expectation.text
  | none =>
    match Text.trimStart rest with
    | [] => "unexpected end of input"
    | cs => "unexpected input near '" ++ String.ofList (cs.take 20) ++ "'"

/-- The result of an outcome. A miss is placed at the byte from which the text made no more sense. -/
def resultOf (source : List Char) : Outcome Node → Except Error Node
  | .ok node _ => .ok node
  | .miss rest expected =>
    let offset := (String.ofList source).utf8ByteSize - (String.ofList rest).utf8ByteSize
    .error (.grammarAt (String.ofList source) offset (complaint rest expected))
  | .halt error => .error error

/-- The statement that the grammar alone reads from a text; the statement itself is at level one. -/
def read (limit : Nat) (source : List Char) : Except Error Node :=
  resultOf source (statement limit (limit - 1) source)

end JetSql.Grammar

namespace JetSql

/-- The tree of a source text, if nothing in it nests beyond the limit. -/
def parse (source : String) (limit : Nat) : Except Error Node :=
  let depth := Grammar.nestingDepth source.toList
  if limit < depth then .error (.tooDeep depth limit) else Grammar.read limit source.toList

end JetSql
