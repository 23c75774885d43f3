/-
Runs of the program.

`run` takes the arguments and access to files, and ends with a report. A conversion is **all or
nothing**: only when everything has succeeded, the writing of the output file included, is the
converted statement shown.
-/

import JetSql.CommandLine.Arguments
import JetSql.CommandLine.Report
import JetSql.Convert
import JetSql.Disk

namespace JetSql.CommandLine

variable {m : Type → Type} [Monad m]

/-- A configuration with what the options say instead. -/
def Options.override (options : Options) (config : Config) : Except Failure Config :=
  let dialect := options.dialect.getD config.dialect
  match options.maxDepth with
  | some 0 => .error .zeroDepth
  | some maxDepth => .ok { config with dialect, maxDepth }
  | none => .ok { config with dialect }

/-- The configuration of a run. -/
def Options.load (options : Options) (disk : Disk m) : ExceptT Failure m Config := do
  match ← disk.loadConfig options.config with
  | .ok config => ExceptT.mk (pure (options.override config))
  | .error error => throw (.conversion error)

/-- The text of a file. -/
def readSource (disk : Disk m) (path : String) : ExceptT Failure m String := do
  match ← disk.read path with
  | .ok source => pure source
  | .error fault => throw (.unreadable path fault)

/-- The statement to convert: the text of the file among the options, or else the input, which is
the path of a file if there is such a file. -/
def source? (disk : Disk m) (options : Options) (input : Option String) :
    ExceptT Failure m (Option String) := do
  match options.file, input with
  | some path, _ => return some (← readSource disk path)
  | none, some text =>
    if ← disk.isFile text then return some (← readSource disk text) else return some text
  | none, none => return none

/-- Put a converted statement into the output file if there is one, and tell so. -/
def deliver (disk : Disk m) (options : Options) (sql : String) : ExceptT Failure m Report := do
  let out := if options.quiet then "" else sql ++ "\n"
  match options.output with
  | none => return ⟨0, out, ""⟩
  | some path =>
    match ← disk.write path (sql ++ "\n") with
    | .ok () => return ⟨0, out, "✓ Wrote " ++ path ++ "\n"⟩
    | .error (step, fault) => throw (.unwritable path step fault)

/-- What a run tells of its target, if it is to tell more. -/
def Options.note (options : Options) (config : Config) : String :=
  if options.verbose then
    "Target: " ++ config.dialect.name ++ " (max depth " ++ toString config.maxDepth ++ ")\n"
  else ""

/-- A program whose report follows a note, also if it fails. -/
def noting (note : String) (program : ExceptT Failure m Report) : ExceptT Failure m Report :=
  ExceptT.mk do return .ok ((reported (← program.run)).withNote note)

/-- Convert a statement under a configuration. -/
def convertWith (disk : Disk m) (options : Options) (config : Config) (source : String) :
    ExceptT Failure m Report := do
  match convert config source with
  | .ok sql => deliver disk options sql
  | .error error => throw (.conversion error)

/-- Convert the statement that a run is given. The note is written before the statement is read. -/
def runConvert (disk : Disk m) (options : Options) (input : Option String) :
    ExceptT Failure m Report := do
  match ← source? disk options input with
  | none => return ⟨0, introduction, ""⟩
  | some source =>
    let config ← options.load disk
    noting (options.note config) (convertWith disk options config source)

/-- Explain a statement. The tree is shown even when it cannot be rendered. -/
def runExplain (disk : Disk m) (options : Options) (query : String) (json : Bool) :
    ExceptT Failure m Report := do
  let config ← options.load disk
  match parse query config.maxDepth with
  | .error error => throw (.conversion error)
  | .ok tree =>
    if json then return ⟨0, tree.toJson.pretty ++ "\n", ""⟩
    else
      let shown := treeText query tree
      match (Renderer.ofConfig config).render tree with
      | .ok sql => return ⟨0, shown ++ renderingText config.dialect sql, ""⟩
      | .error error => return (Failure.conversion error).report shown

/-- List the renames in force. -/
def runFunctions (disk : Disk m) (options : Options) : ExceptT Failure m Report := do
  let config ← options.load disk
  return ⟨0, functionsText (Renderer.ofConfig config), ""⟩

/-- Carry out a command. -/
def Invocation.run (disk : Disk m) (invocation : Invocation) : m Report := do
  let result ← ExceptT.run <|
    match invocation.command with
    | .convert input => runConvert disk invocation.options input
    | .explain query json => runExplain disk invocation.options query json
    | .rules => pure ⟨0, rulesText, ""⟩
    | .functions => runFunctions disk invocation.options
    | .information => pure .information
  return reported result

/-- Run the program. -/
def run (disk : Disk m) (args : List String) : m Report :=
  match Invocation.ofArguments? args with
  | none => pure .usage
  | some invocation => invocation.run disk

end JetSql.CommandLine
