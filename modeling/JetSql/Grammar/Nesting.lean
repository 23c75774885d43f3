/-
The depth of parentheses in a text, found by looking at its characters alone.

The scan knows which stretches hold no parentheses of the statement: string and date literals and
bracketed names, up to the delimiter that closes them, and comments, up to the line feed.
-/

namespace JetSql.Grammar

/-- The delimiter that closes what a character opens, given the text after it. -/
def closingDelimiter (c : Char) (rest : List Char) : Option Char :=
  if c = '\'' || c = '"' || c = '#' then some c
  else if c = '[' then some ']'
  else if c = '-' && rest.head? == some '-' then some '\n'
  else none

/-- The deepest nesting in a text, when a delimiter may be awaited and some parentheses are open. -/
def deepestFrom (awaited : Option Char) (level deepest : Nat) : List Char → Nat
  | [] => deepest
  | c :: rest =>
    match awaited with
    | some delimiter =>
      deepestFrom (if c = delimiter then none else some delimiter) level deepest rest
    | none =>
      if c = '(' then deepestFrom none (level + 1) (max deepest (level + 1)) rest
      else if c = ')' then deepestFrom none (level - 1) deepest rest
      else deepestFrom (closingDelimiter c rest) level deepest rest

/-- The deepest nesting of parentheses outside literals, bracketed names and comments. -/
def nestingDepth (source : List Char) : Nat :=
  deepestFrom none 0 0 source

end JetSql.Grammar
