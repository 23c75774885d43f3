/-
Configurations in a settings document. Three settings may be given, each at most once: `dialect`,
`max_depth`, and the table `functions`. Anything else in the document makes it unusable, and an
unusable document is reported without a reason of its own.
-/

import JetSql.Config
import JetSql.Toml.Document

namespace JetSql.Settings

open Toml

/-- Whether a value is a table or list without anything in it. -/
def isEmptyValue : Value → Bool
  | .emptyList | .table _ [] => true
  | _ => false

/-- The setting `dialect`: an exact name, as a text or as the only key of a table. -/
def dialect? : Value → Option Dialect
  | .text name => Dialect.ofExactName? name
  | .table _ [(name, value)] => if isEmptyValue value then Dialect.ofExactName? name else none
  | _ => none

/-- The setting `max_depth`: a number that is not negative. -/
def maxDepth? : Value → Option Nat
  | .integer value => if 0 ≤ value then some value.toNat else none
  | _ => none

/-- The name under which a date or time counts as the one entry of a table. -/
def momentKey : String := "$__toml_private_datetime"

/-- One rename. -/
def rename? : String × Value → Option (String × String)
  | (source, .text target) => some (source, target)
  | _ => none

/-- The setting `functions`: a table of texts. -/
def functions? : Value → Option Dictionary
  | .table _ entries => (entries.mapM rename?).map .ofList
  | .moment iso => some (.ofList [(momentKey, iso)])
  | _ => none

/-- A configuration changed by one setting. -/
def withSetting? (config : Config) : String × Value → Option Config
  | (key, value) =>
    if key = "dialect" then (dialect? value).map fun dialect => { config with dialect }
    else if key = "max_depth" then (maxDepth? value).map fun maxDepth => { config with maxDepth }
    else if key = "functions" then
      (functions? value).map fun functions => { config with functions }
    else none

/-- The configuration that a document gives, before validation. -/
def read? (source : String) : Option Config := do
  (← Document.read? source).foldlM withSetting? Config.default

end JetSql.Settings

namespace JetSql

/-- The configuration of a settings document. -/
def Config.ofSettings (source : String) : Except Error Config :=
  match Settings.read? source with
  | some config => config.validate
  | none => .error (.config .unreadableSettings)

end JetSql
