/-
Conversion: a statement is read and its tree rendered, both under the limit of the configuration.
-/

import JetSql.Grammar.Statement
import JetSql.Renderer

namespace JetSql

/-- The text of a statement in the target dialect. -/
def convert (config : Config) (source : String) : Except Error String := do
  let tree ← parse source config.maxDepth
  (Renderer.ofConfig config).render tree

end JetSql
