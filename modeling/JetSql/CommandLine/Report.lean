/-
What a run of the program shows, and the texts it is made of.

A run ends with a `Report`: an exit code and what went to the two streams. A `Failure` is told on
the second stream in one line. **A message that is not settled has no line end:** where the cause is
in a settings document or in a temporary file, the words of another reader follow there.

The lines of the log are left out, which bear the time and go to the second stream too.
-/

import JetSql.Files
import JetSql.Rule
import JetSql.Text.Pad
import JetSql.Renderer
import JetSql.Tree.Label
import JetSql.Tree.Serial

namespace JetSql.CommandLine

/-- The exit code of a run and what it wrote. -/
structure Report where
  code : Nat
  out : String
  err : String
deriving DecidableEq, Repr

/-- The report of arguments that do not fit; what it writes to the second stream is not part of this
library. -/
def Report.usage : Report := ⟨2, "", ""⟩

/-- The report of an answer about the program; what it writes is not part of this library. -/
def Report.information : Report := ⟨0, "", ""⟩

/-- A report with a note before what went to the second stream. -/
def Report.withNote (note : String) (report : Report) : Report :=
  { report with err := note ++ report.err }

/-! ### Failures -/

/-- Why a run failed. -/
inductive Failure where
  | conversion (error : Error)
  | unreadable (path : String) (fault : FileFault)
  | unwritable (path : String) (step : WriteStep) (fault : FileFault)
  /-- A limit of zero among the arguments. -/
  | zeroDepth
deriving DecidableEq, Repr

namespace Failure

/-- The words for a failure. -/
def message : Failure → String
  | conversion (.file path fault) => (Error.file path fault).message ++ ": " ++ fault.message
  | conversion error => error.message
  | unreadable path fault => "failed to read " ++ path ++ ": " ++ fault.message
  | unwritable path _ fault => (Error.file path fault).message ++ ": " ++ fault.message
  | zeroDepth => "--max-depth must be at least 1"

/-- Whether the words tell all. -/
def isSettled : Failure → Bool
  | conversion (.config fault) => !fault.isUnreadable
  | unwritable _ .opening _ => false
  | _ => true

/-- The line for a failure. What is written of an abort is not part of this library. -/
def line : Failure → String
  | conversion .aborted => ""
  | failure => "Error: " ++ failure.message ++ (if failure.isSettled then "\n" else "")

/-- The exit code for a failure. An abort ends the program before it can choose one. -/
def code : Failure → Nat
  | conversion .aborted => 101
  | _ => 1

/-- The report of a failure after some output. -/
def report (failure : Failure) (out : String) : Report :=
  ⟨failure.code, out, failure.line⟩

end Failure

/-- What a run reports, if its command comes to a result. -/
def reported : Except Failure Report → Report
  | .ok report => report
  | .error failure => failure.report ""

/-! ### Listings -/

/-- Lines, each with its line break. -/
def linesText (lines : List String) : String :=
  String.join (lines.map (· ++ "\n"))

/-- A ruled line. -/
def rule (width : Nat) : String :=
  String.ofList (List.replicate width '─')

/-- What is shown when there is nothing to convert. -/
def introduction : String :=
  linesText
    ["accql — Access SQL → PostgreSQL",
     "",
     "Usage: accql <SQL | FILE> [OPTIONS]",
     "",
     "Try: accql --help"]

/-- The table of rules. -/
def rulesText : String :=
  let row (kind rule effect : String) :=
    Text.padEnd 18 kind ++ " " ++ Text.padEnd 14 rule ++ " " ++ effect
  linesText
    (["accql Rewrite Rules", "", row "Kind" "Rule" "Effect", CommandLine.rule 72] ++
      Rule.table.map fun (kind, rule) => row kind.name rule.name rule.effect)

/-- The table of renames in force. -/
def functionsText (renderer : Renderer) : String :=
  let row (source target : String) := Text.padEnd 16 source ++ " " ++ target
  linesText
    (["Function renames for " ++ renderer.dialect.name, "", row "Access" "Target", rule 40] ++
      renderer.renames.entries.map fun (source, target) => row source target)

/-! ### Explanations -/

/-- The line of a node in a tree. -/
def nodeLine (depth : Nat) (node : Node) : String :=
  String.ofList (List.replicate (2 * depth) ' ') ++ node.label ++ " [" ++ node.kind.rule.name ++ "]"

/-- The part of an explanation that needs no rendering. -/
def treeText (query : String) (tree : Node) : String :=
  linesText
    (["accql Query Explanation", "", "Query: " ++ query, "", "Parse Tree:"] ++
      (tree.walk 1).map (fun (depth, node) => nodeLine depth node) ++ [""])

/-- The part of an explanation that shows the rendered tree. -/
def renderingText (dialect : Dialect) (sql : String) : String :=
  linesText ["Converted SQL (" ++ dialect.name ++ "):", "  " ++ sql]

end JetSql.CommandLine
