/-
Links: the operators that may follow a complete operand and carry an expression on.

`Link.read` reads the operator, and of `IS NULL` all of it; the operands that follow are read by
`JetSql.Grammar.operand`. Two words that begin with `NOT` are told apart by the second word. A text
without a link ends the chain and is no miss; a text that aborts the reading is no such text.
-/

import JetSql.Grammar.Token

namespace JetSql.Grammar

open Reader

/-- An operator after an operand. -/
inductive Link where
  | logical (op : LogicOp)
  | compare (op : CompareOp)
  | arithmetic (op : ArithOp)
  | isNull (negated : Bool)
  | inList (negated : Bool)
  | between (negated : Bool)
deriving DecidableEq, Repr

namespace Link

/-- How tightly a link binds; a greater number is tighter. -/
def precedence : Link → Nat
  | logical op => op.precedence
  | compare _ | isNull _ | inList _ | between _ => 4
  | arithmetic op => op.precedence

/-- The links and their spellings, longer symbols before their beginnings. -/
def readers : List (Reader Link) :=
  [keyword "OR" *> pure (logical .or),
   keyword "AND" *> pure (logical .and),
   symbol "<>" *> pure (compare .ne),
   symbol "!=" *> pure (compare .ne),
   symbol "<=" *> pure (compare .lte),
   symbol ">=" *> pure (compare .gte),
   symbol "<" *> pure (compare .lt),
   symbol ">" *> pure (compare .gt),
   symbol "=" *> pure (compare .eq),
   keyword "NOT" *> keyword "LIKE" *> pure (compare .notLike),
   keyword "LIKE" *> pure (compare .like),
   keyword "IS" *> keyword "NOT" *> keyword "NULL" *> pure (isNull true),
   keyword "IS" *> keyword "NULL" *> pure (isNull false),
   keyword "NOT" *> keyword "IN" *> pure (inList true),
   keyword "IN" *> pure (inList false),
   keyword "NOT" *> keyword "BETWEEN" *> pure (between true),
   keyword "BETWEEN" *> pure (between false),
   symbol "&" *> pure (arithmetic .concat),
   symbol "+" *> pure (arithmetic .add),
   symbol "-" *> pure (arithmetic .sub),
   symbol "*" *> pure (arithmetic .mul),
   symbol "/" *> pure (arithmetic .div),
   symbol "\\" *> pure (arithmetic .intDiv),
   keyword "MOD" *> pure (arithmetic .mod)]

/-- The link that a text begins with, if it begins with one. -/
def read : Reader (Option Link) :=
  firstOf readers

/-- The link that is read off a text, and the text after it. -/
def read? (s : List Char) : Option (Link × List Char) :=
  (read s).found?

end Link

/-- The joins and their spellings. -/
def joinReaders : List (Reader JoinKind) :=
  [keyword "INNER" *> keyword "JOIN" *> pure .inner,
   keyword "LEFT" *> optional (keyword "OUTER") *> keyword "JOIN" *> pure .left,
   keyword "RIGHT" *> optional (keyword "OUTER") *> keyword "JOIN" *> pure .right]

/-- The join that a text begins with, if it begins with one. -/
def readJoin : Reader (Option JoinKind) :=
  firstOf joinReaders

/-- The join that is read off a text, and the text after it. -/
def readJoin? (s : List Char) : Option (JoinKind × List Char) :=
  (readJoin s).found?

end JetSql.Grammar
