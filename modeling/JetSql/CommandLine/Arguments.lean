/-
Arguments of the command line.

Arguments are taken one by one. An option that takes a value awaits it: attached to it, or else as
the next argument, which may not look like an option. A command may stand wherever an input may; the
arguments after it are its own. After two minus signs alone nothing is an option or a command.

**Arguments that do not fit are one and the same fault**, `none`: an unknown option, one given
twice, a missing or unusable value, too many inputs, a file together with an input.

**A question is answered as soon as it is asked**: what follows it is not looked at, and of what stands
before it only the faults that were found by then count. Questions are `--help`, which is one in every
command, `--version`, which is one before any command, and the command `help`, which takes the name of
a command.
-/

import JetSql.Dialect

namespace JetSql.CommandLine

/-- What the options ask for. -/
structure Options where
  file : Option String
  output : Option String
  dialect : Option Dialect
  maxDepth : Option Nat
  config : Option String
  quiet : Bool
  verbose : Bool
deriving DecidableEq, Repr

/-- What is to be done. -/
inductive Command where
  /-- Convert the input, or the file that the options name. -/
  | convert (input : Option String)
  | explain (query : String) (json : Bool)
  | rules
  | functions
  /-- Tell how the program is used, or its version. -/
  | information
deriving DecidableEq, Repr

/-- A command with its options. -/
structure Invocation where
  options : Options
  command : Command
deriving DecidableEq, Repr

/-! ### Options and values -/

/-- An option that takes a value. -/
inductive Setting where
  | file | output | dialect | maxDepth | config
deriving DecidableEq, Repr

/-- An option that takes none. -/
inductive Flag where
  | quiet | verbose
deriving DecidableEq, Repr

/-- An option that asks about the program. -/
inductive Question where
  | help | version
deriving DecidableEq, Repr

/-- The settings by their long names. -/
def Setting.ofName? (name : String) : Option Setting :=
  [("file", file), ("output", output), ("dialect", dialect), ("max-depth", maxDepth),
   ("config", config)].lookup name

/-- The settings by their letters. -/
def Setting.ofLetter? (letter : Char) : Option Setting :=
  [('f', file), ('o', output), ('d', dialect), ('c', config)].lookup letter

/-- The flags by their long names. -/
def Flag.ofName? (name : String) : Option Flag :=
  [("quiet", quiet), ("verbose", verbose)].lookup name

/-- The flags by their letters. -/
def Flag.ofLetter? (letter : Char) : Option Flag :=
  [('q', quiet), ('v', verbose)].lookup letter

/-- The questions by their long names. -/
def Question.ofName? (name : String) : Option Question :=
  [("help", help), ("version", version)].lookup name

/-- The questions by their letters. -/
def Question.ofLetter? (letter : Char) : Option Question :=
  [('h', help), ('V', version)].lookup letter

/-- A path, which may not be empty. -/
def path? (value : String) : Option String :=
  if value.isEmpty then none else some value

/-- A number of at most 64 bits, perhaps with a plus sign. -/
def number? (value : String) : Option Nat :=
  let digits := match value.toList with
    | '+' :: digits => digits
    | digits => digits
  if digits.isEmpty || !digits.all Char.isDigit then none
  else
    let number := digits.foldl (fun number digit => 10 * number + (digit.toNat - '0'.toNat)) 0
    if number < UInt64.size then some number else none

/-- Put a value where there is none yet. -/
def once {α : Type} (old : Option α) (new : Option α) : Option (Option α) :=
  if old.isSome || new.isNone then none else some new

namespace Options

/-- No options at all. -/
def empty : Options := ⟨none, none, none, none, none, false, false⟩

/-- The options with one setting more. -/
def set (options : Options) (value : String) : Setting → Option Options
  | .file => (once options.file (path? value)).map fun file => { options with file }
  | .output => (once options.output (path? value)).map fun output => { options with output }
  | .dialect =>
    (once options.dialect (Dialect.ofName value).toOption).map fun dialect =>
      { options with dialect }
  | .maxDepth =>
    (once options.maxDepth (number? value)).map fun maxDepth => { options with maxDepth }
  | .config => (once options.config (path? value)).map fun config => { options with config }

/-- The options with one flag more. -/
def raise (options : Options) : Flag → Option Options
  | .quiet => if options.quiet then none else some { options with quiet := true }
  | .verbose => if options.verbose then none else some { options with verbose := true }

end Options

/-! ### Taking arguments -/

/-- The command whose arguments are being taken. -/
inductive Mode where
  | convert
  | explain (query : Option String) (json : Bool)
  | rules
  | functions
  /-- The command that is asked about may still be named. -/
  | help (named : Bool)
  /-- A question was asked. -/
  | answered
deriving DecidableEq, Repr

/-- The commands by their names. -/
def Mode.ofName? (name : String) : Option Mode :=
  [("explain", explain none false), ("rules", rules), ("functions", functions),
   ("help", help false)].lookup name

/-- Whether a question is one where it is asked. -/
def Mode.allows (mode : Mode) : Question → Bool
  | .help => true
  | .version => mode = .convert

/-- What has been taken so far. -/
structure Progress where
  options : Options
  /-- The input, which must stand before a command if there is one. -/
  input : Option String
  mode : Mode
  /-- A setting, and its value if that has come. The value is looked at with the next argument that is
  no command, or in the end. -/
  awaited : Option (Setting × Option String)
  /-- Nothing more is an option or a command. -/
  optionsEnded : Bool
deriving DecidableEq, Repr

namespace Progress

/-- Before the first argument. -/
def start : Progress := ⟨.empty, none, .convert, none, false⟩

/-- The value of a setting is put among the options. -/
def set (progress : Progress) (setting : Setting) (value : String) : Option Progress :=
  (progress.options.set value setting).map fun options => { progress with options, awaited := none }

/-- The value that is awaited must have come. -/
def settle (progress : Progress) : Option Progress :=
  match progress.awaited with
  | none => some progress
  | some (_, none) => none
  | some (setting, some value) => progress.set setting value

/-- An argument that is neither an option nor a command. -/
def takeText (progress : Progress) (arg : String) : Option Progress :=
  match progress.mode, progress.input with
  | .convert, none => some { progress with input := some arg }
  | .explain none json, _ => some { progress with mode := .explain (some arg) json }
  | _, _ => none

/-- A setting, with its value attached or awaited. -/
def takeSetting (progress : Progress) (setting : Setting) : Option String → Option Progress
  | some value => progress.set setting value
  | none => some { progress with awaited := some (setting, none) }

/-- An option by its long name, with an attached value if there is one. -/
def takeLong (progress : Progress) (name : String) (value : Option String) : Option Progress :=
  if value.isNone && (Question.ofName? name).any progress.mode.allows then
    some { progress with mode := .answered }
  else
    match progress.mode with
    | .convert =>
      match Setting.ofName? name, Flag.ofName? name, value with
      | some setting, _, value => progress.takeSetting setting value
      | none, some flag, none =>
        (progress.options.raise flag).map fun options => { progress with options }
      | none, _, _ => none
    | .explain query false =>
      if name = "json" && value.isNone then some { progress with mode := .explain query true }
      else none
    | _ => none

/-- Options by their letters. What follows the letter of a setting is its value, less one equals
sign. -/
def takeLetters (progress : Progress) : List Char → Option Progress
  | [] => some progress
  | letter :: rest =>
    if (Question.ofLetter? letter).any progress.mode.allows then
      some { progress with mode := .answered }
    else
      match progress.mode, Setting.ofLetter? letter, Flag.ofLetter? letter with
      | .convert, some setting, _ =>
        progress.takeSetting setting
          (match rest with
          | [] => none
          | '=' :: value => some (String.ofList value)
          | value => some (String.ofList value))
      | .convert, none, some flag =>
        match progress.options.raise flag with
        | some options => takeLetters { progress with options } rest
        | none => none
      | _, _, _ => none

/-- An argument that is no command and no value that is awaited. -/
def takeFree (progress : Progress) (arg : String) : Option Progress :=
  if progress.optionsEnded then progress.takeText arg
  else
    match arg.toList with
    | ['-', '-'] => some { progress with optionsEnded := true }
    | '-' :: '-' :: option =>
      let name := String.ofList (option.takeWhile (· != '='))
      match option.dropWhile (· != '=') with
      | [] => progress.takeLong name none
      | _ :: value => progress.takeLong name (some (String.ofList value))
    | '-' :: letter :: letters => progress.takeLetters (letter :: letters)
    | _ => progress.takeText arg

/-- One more argument. The value of a setting may be a minus sign but may not begin with one. -/
def take (progress : Progress) (arg : String) : Option Progress :=
  match progress.mode, progress.awaited with
  | .answered, _ => some progress
  | .help named, _ =>
    if !named && (Mode.ofName? arg).isSome then some { progress with mode := .help true } else none
  | .convert, some (setting, none) =>
    if arg.toList.head? == some '-' && arg != "-" then none
    else some { progress with awaited := some (setting, some arg) }
  | .convert, _ =>
    match if progress.optionsEnded then none else Mode.ofName? arg with
    | some mode => some { progress with mode }
    | none => do (← progress.settle).takeFree arg
  | _, _ => progress.takeFree arg

/-- The invocation that all arguments make. -/
def finish (progress : Progress) : Option Invocation :=
  match progress.mode with
  | .answered | .help _ => some ⟨progress.options, .information⟩
  | mode => do
    let settled ← progress.settle
    if settled.options.file.isSome && settled.input.isSome then none
    else
      match mode with
      | .convert => some ⟨settled.options, .convert settled.input⟩
      | .explain (some query) json => some ⟨settled.options, .explain query json⟩
      | .rules => some ⟨settled.options, .rules⟩
      | .functions => some ⟨settled.options, .functions⟩
      | _ => none

end Progress

/-- The invocation of a list of arguments. -/
def Invocation.ofArguments? (args : List String) : Option Invocation := do
  (← args.foldlM Progress.take Progress.start).finish

end JetSql.CommandLine
