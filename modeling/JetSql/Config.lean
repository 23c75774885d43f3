/-
Configurations: the target, the nesting limit, and renames beyond those of the target.

A configuration is put together freely and then validated: the limit is at least one, and no side of
a rename is blank. Of several blank renames the first in order of source names is reported.
-/

import JetSql.Dialect
import JetSql.Dictionary
import JetSql.Text.Blank

namespace JetSql

/-- What a conversion may be told. -/
structure Config where
  dialect : Dialect
  maxDepth : Nat
  /-- Target names by source names. -/
  functions : Dictionary
deriving DecidableEq, Repr

namespace Config

/-- The configuration of a conversion that is told nothing. -/
def default : Config := ⟨.postgres, 64, .empty⟩

/-- Whether a side of a rename is blank. -/
def isBlankRename (rename : String × String) : Bool :=
  Text.isAllBlank rename.1 || Text.isAllBlank rename.2

/-- What is wrong with a configuration, if anything is. -/
def fault? (config : Config) : Option ConfigFault :=
  if config.maxDepth = 0 then some .zeroDepth
  else (config.functions.entries.find? isBlankRename).map fun rename => .blankRename rename.1

/-- The configuration if nothing is wrong with it. -/
def validate (config : Config) : Except Error Config :=
  match config.fault? with
  | none => .ok config
  | some fault => .error (.config fault)

/-- A configuration from its parts; a missing part has its default. -/
def build (dialectName : Option String) (maxDepth : Option Nat)
    (functions : List (String × String)) : Except Error Config := do
  let dialect ← (dialectName.map Dialect.ofName).getD (.ok default.dialect)
  validate ⟨dialect, maxDepth.getD default.maxDepth, .ofList functions⟩

end Config

end JetSql
