/-
Tables after `FROM`: names with aliases, joins, and joins in parentheses. Joins lean to the left,
and like the links of an expression each costs one level of the budget.
-/

import JetSql.Grammar.Expression

namespace JetSql.Grammar

open Reader

/-- What may be read of tables one level down. -/
structure TablesBelow where
  /-- A table and the joins after it. -/
  tables : Reader Node
  /-- One table, without joins after it. -/
  factor : Reader Node
  /-- The joins after a table. -/
  joins : Node → Reader Node
  /-- The condition of a join. -/
  condition : Reader Node

/-- A table with an optional alias, or joined tables in parentheses. -/
def factorOf (limit : Nat) (below : Option TablesBelow) : Reader Node := do
  spacing
  if (← optional (symbol "(")).isSome then
    descend limit below fun below => do
      let inner ← below.tables
      expecting .closingParenthesis (symbol ")")
      pure (.grouped inner)
  else
    let table ← identifier
    let asName ← optional (optional (keyword "AS") *> tableAlias)
    pure (.tableRef table asName)

/-- The joins after a table. -/
def joinsOf (limit : Nat) (below : Option TablesBelow) (left : Node) : Reader Node := fun s =>
  match readJoin s with
  | .ok (some kind) rest =>
    descend limit below (fun below => do
      let right ← expecting .joinedTable below.factor
      expecting .on (keyword "ON")
      let on ← below.condition
      below.joins (.join left kind right on)) rest
  | .ok none _ | .miss .. => .ok left s
  | .halt error => .halt error

/-- A table and the joins after it. -/
def tablesOf (limit : Nat) (below : Option TablesBelow) : Reader Node := do
  let left ← factorOf limit below
  joinsOf limit below left

mutual

/-- A table and the joins after it. -/
def tables (limit : Nat) : Nat → Reader Node
  | 0 => tablesOf limit none
  | budget + 1 =>
    tablesOf limit
      (some ⟨tables limit budget, factor limit budget, joins limit budget,
        expression limit budget⟩)

/-- A table without joins after it. -/
def factor (limit : Nat) : Nat → Reader Node
  | 0 => factorOf limit none
  | budget + 1 =>
    factorOf limit
      (some ⟨tables limit budget, factor limit budget, joins limit budget,
        expression limit budget⟩)

/-- The joins after a table. -/
def joins (limit : Nat) : Nat → Node → Reader Node
  | 0, left => joinsOf limit none left
  | budget + 1, left =>
    joinsOf limit
      (some ⟨tables limit budget, factor limit budget, joins limit budget,
        expression limit budget⟩) left

end

/-- What may be read of tables below a budget: nothing when it is spent. -/
def tablesBelowAt (limit : Nat) : Nat → Option TablesBelow
  | 0 => none
  | budget + 1 =>
    some ⟨tables limit budget, factor limit budget, joins limit budget, expression limit budget⟩

theorem tables_eq (limit budget : Nat) :
    tables limit budget = tablesOf limit (tablesBelowAt limit budget) := by
  cases budget <;> rfl

theorem factor_eq (limit budget : Nat) :
    factor limit budget = factorOf limit (tablesBelowAt limit budget) := by
  cases budget <;> rfl

theorem joins_eq (limit budget : Nat) :
    joins limit budget = joinsOf limit (tablesBelowAt limit budget) := by
  cases budget <;> rfl

end JetSql.Grammar
