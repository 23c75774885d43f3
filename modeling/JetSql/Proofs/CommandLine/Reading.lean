/-
What a run reads before it shows or writes anything.

The relations of this module say what a run goes by, without the order in which it looks:
`Supplies` the statement, `Found` the configuration in the files, `Overrides` what the options say
instead.

* **Looking for the statement or the configuration changes no file, and comes to exactly what these
  relations allow** (`looks_source?`, `looks_load`). `Looks` is such a law, for success and failure in
  one: where nothing is allowed, the program fails, and it does not abort.
-/

import JetSql.CommandLine.Run

namespace JetSql.CommandLine

variable {ε α β : Type} {files files' : Files} {userDirectory : Option String} {options : Options}
  {config : Config}

/-! ### Steps -/

theorem run_bind_ok {program : ExceptT ε (StateM Files) α} {next : α → ExceptT ε (StateM Files) β}
    {value : α} (h : program.run.run files = (.ok value, files')) :
    (program >>= next).run.run files = (next value).run.run files' := by
  rw [ExceptT.run_bind, StateT.run_bind, h]
  rfl

theorem run_bind_error {program : ExceptT ε (StateM Files) α}
    {next : α → ExceptT ε (StateM Files) β} {error : ε}
    (h : program.run.run files = (.error error, files')) :
    (program >>= next).run.run files = (.error error, files') := by
  rw [ExceptT.run_bind, StateT.run_bind, h]
  rfl

theorem run_bind_lift {program : StateM Files α} {next : α → ExceptT ε (StateM Files) β} {value : α}
    (h : program.run files = (value, files')) :
    ((liftM program : ExceptT ε (StateM Files) α) >>= next).run.run files =
      (next value).run.run files' := by
  apply run_bind_ok
  change (Except.ok <$> program).run files = _
  rw [StateT.run_map, h]
  rfl

/-! ### Programs that only look -/

theorem run_read (files : Files) (userDirectory : Option String) (path : String) :
    ((Files.disk userDirectory).read path).run files = (files.read path, files) :=
  rfl

theorem run_isFile (files : Files) (userDirectory : Option String) (path : String) :
    ((Files.disk userDirectory).isFile path).run files = (files.isFile path, files) :=
  rfl

/-- A program changes no file, comes to exactly the values of which `holds` is true, and fails only with
errors of which `tells` is. -/
def Looks (files : Files) (program : StateM Files (Except ε α)) (holds : α → Prop) (tells : ε → Prop) :
    Prop :=
  ∃ result, program.run files = (result, files) ∧ (∀ value, result = .ok value ↔ holds value) ∧
    ∀ error, result = .error error → tells error

section

variable {holds : α → Prop} {tells : ε → Prop} {program : StateM Files (Except ε α)}

theorem Looks.ok_or_error (h : Looks files program holds tells) :
    (∃ value, holds value ∧ program.run files = (.ok value, files)) ∨
      (∃ error, tells error ∧ (∀ value, ¬ holds value) ∧
        program.run files = (.error error, files)) := by
  obtain ⟨result, hrun, hresult, htells⟩ := h
  cases result with
  | ok value => exact .inl ⟨value, (hresult value).mp rfl, hrun⟩
  | error error =>
    refine .inr ⟨error, htells error rfl, ?_, hrun⟩
    intro value hholds
    cases (hresult value).mpr hholds

theorem Looks.ok {value : α} (h : Looks files program holds tells) (hvalue : holds value) :
    program.run files = (.ok value, files) := by
  obtain ⟨result, hrun, hresult, _⟩ := h
  rw [hrun, (hresult value).mpr hvalue]

theorem Looks.unique {value value' : α} (h : Looks files program holds tells) (hvalue : holds value)
    (hvalue' : holds value') : value = value' := by
  have hsame := (h.ok hvalue).symm.trans (h.ok hvalue')
  cases hsame
  rfl

/-- What comes after a look at the files. -/
theorem Looks.after {program : StateM Files β} {value : β} {next : β → StateM Files (Except ε α)}
    (hrun : program.run files = (value, files)) (h : Looks files (next value) holds tells) :
    Looks files (program >>= next) holds tells := by
  obtain ⟨result, hnext, hresult⟩ := h
  refine ⟨result, ?_, hresult⟩
  rw [StateT.run_bind, hrun]
  exact hnext

/-- The same, where what comes after may fail. -/
theorem Looks.afterLift {program : StateM Files β} {value : β}
    {next : β → ExceptT ε (StateM Files) α} (hrun : program.run files = (value, files))
    (h : Looks files (next value).run holds tells) :
    Looks files ((liftM program : ExceptT ε (StateM Files) β) >>= next).run holds tells := by
  obtain ⟨result, hnext, hresult⟩ := h
  exact ⟨result, (run_bind_lift hrun).trans hnext, hresult⟩

theorem looks_pure {result : Except ε α} (h : ∀ value, result = .ok value ↔ holds value)
    (htells : ∀ error, result = .error error → tells error) :
    Looks files (pure result) holds tells :=
  ⟨result, rfl, h, htells⟩

theorem Looks.congr {holds' : α → Prop} (h : Looks files program holds tells)
    (hiff : ∀ value, holds value ↔ holds' value) : Looks files program holds' tells := by
  obtain ⟨result, hrun, hresult, htells⟩ := h
  exact ⟨result, hrun, fun value => (hresult value).trans (hiff value), htells⟩

theorem Looks.returnSome {program : ExceptT ε (StateM Files) α}
    (h : Looks files program.run holds tells) :
    Looks files (do return some (← program) : ExceptT ε (StateM Files) (Option α)).run
      (fun found => ∃ value, found = some value ∧ holds value) tells := by
  obtain ⟨result, hrun, hresult, htells⟩ := h
  cases result with
  | ok value =>
    refine ⟨.ok (some value), run_bind_ok hrun, ?_, nofun⟩
    intro found
    constructor
    · rintro ⟨⟩
      exact ⟨value, rfl, (hresult value).mp rfl⟩
    · rintro ⟨value', rfl, hvalue'⟩
      cases (hresult value').mpr hvalue'
      rfl
  | error error =>
    refine ⟨.error error, run_bind_error hrun, ?_, ?_⟩
    · intro found
      simp only [reduceCtorEq, false_iff]
      rintro ⟨value, _, hvalue⟩
      cases (hresult value).mpr hvalue
    · rintro error' ⟨⟩
      exact htells error rfl

end

/-! ### The configuration -/

/-- There is a configuration in the file at a path. -/
def Holds (files : Files) (path : String) (config : Config) : Prop :=
  ∃ source, files.read path = .ok source ∧ Config.ofSettings source = .ok config

/-- The configuration that the files of a run give: that of the path given, or else that of the
working directory, or else that of the user, or else the default one. -/
inductive Found (files : Files) (userDirectory : Option String) : Option String → Config → Prop
  | given {path : String} {config : Config} :
    Holds files path config → Found files userDirectory (some path) config
  | ofPlace {config : Config} :
    files.isFile Config.localPath → Holds files Config.localPath config →
    Found files userDirectory none config
  | ofUser {directory : String} {config : Config} :
    ¬ files.isFile Config.localPath → userDirectory = some directory →
    files.isFile (Config.userPath directory) → Holds files (Config.userPath directory) config →
    Found files userDirectory none config
  | default :
    ¬ files.isFile Config.localPath →
    (∀ directory, userDirectory = some directory → ¬ files.isFile (Config.userPath directory)) →
    Found files userDirectory none .default

/-- What the options say comes before what a configuration says. A limit of zero goes with none. -/
structure Overrides (options : Options) (found config : Config) : Prop where
  dialect : config.dialect = options.dialect.getD found.dialect
  maxDepth : config.maxDepth = options.maxDepth.getD found.maxDepth
  functions : config.functions = found.functions
  positive : options.maxDepth ≠ some 0

/-- The configuration of a run. -/
def Configured (files : Files) (userDirectory : Option String) (options : Options)
    (config : Config) : Prop :=
  ∃ found, Found files userDirectory options.config found ∧ Overrides options found config

theorem mapError_ok {ε' : Type} {f : ε → ε'} {value : α} :
    (Except.ok value).mapError f = .ok value := rfl

theorem mapError_error {ε' : Type} {f : ε → ε'} {error : ε} :
    (Except.error error : Except ε α).mapError f = .error (f error) := rfl

/-- A file that is no configuration is told as such. -/
theorem exists_of_ofSettings {source : String} {error : Error}
    (h : Config.ofSettings source = .error error) : ∃ fault, error = .config fault := by
  unfold Config.ofSettings at h
  split at h
  · rename_i config _
    unfold Config.validate at h
    split at h
    · cases h
    · cases h
      exact ⟨_, rfl⟩
  · cases h
    exact ⟨_, rfl⟩

theorem looks_readConfig (files : Files) (userDirectory : Option String) (path : String) :
    Looks files ((Files.disk userDirectory).readConfig path) (Holds files path) (· ≠ .aborted) := by
  unfold Disk.readConfig
  apply Looks.after (run_read files userDirectory path)
  cases hread : files.read path with
  | error fault =>
    refine looks_pure (by simp [Holds, hread]) ?_
    rintro _ ⟨⟩ haborted
    cases haborted
  | ok source =>
    dsimp only
    cases hsettings : Config.ofSettings source with
    | ok config =>
      refine looks_pure ?_ nofun
      intro config'
      rw [mapError_ok, Except.ok.injEq]
      simp [Holds, hread, hsettings]
    | error error =>
      obtain ⟨fault, rfl⟩ := exists_of_ofSettings hsettings
      refine looks_pure ?_ ?_
      · intro config
        rw [mapError_error]
        simp [Holds, hread, hsettings]
      · rintro _ ⟨⟩ haborted
        cases haborted

theorem looks_firstConfig_nil (files : Files) (userDirectory : Option String) :
    Looks files ((Files.disk userDirectory).firstConfig []) (· = .default) (· ≠ .aborted) := by
  refine looks_pure ?_ nofun
  intro config
  rw [Except.ok.injEq, eq_comm]

theorem looks_firstConfig_cons {path : String} {paths : List String} {holds : Config → Prop}
    (h : Looks files ((Files.disk userDirectory).firstConfig paths) holds (· ≠ .aborted)) :
    Looks files ((Files.disk userDirectory).firstConfig (path :: paths))
      (fun config => if files.isFile path then Holds files path config else holds config)
      (· ≠ .aborted) := by
  unfold Disk.firstConfig
  apply Looks.after (run_isFile files userDirectory path)
  by_cases hfile : files.isFile path
  · simp only [hfile, if_true]
    exact looks_readConfig files userDirectory path
  · simp only [hfile]
    exact h

theorem looks_userConfig (files : Files) (userDirectory : Option String) :
    Looks files ((Files.disk userDirectory).firstConfig (userDirectory.map Config.userPath).toList)
      (fun config =>
        (∃ directory, userDirectory = some directory ∧ files.isFile (Config.userPath directory) ∧
          Holds files (Config.userPath directory) config) ∨
        (∀ directory, userDirectory = some directory →
          ¬ files.isFile (Config.userPath directory)) ∧ config = .default) (· ≠ .aborted) := by
  cases userDirectory with
  | none =>
    apply (looks_firstConfig_nil files none).congr
    simp
  | some directory =>
    apply (looks_firstConfig_cons (looks_firstConfig_nil files (some directory))).congr
    intro config
    by_cases hfile : files.isFile (Config.userPath directory)
    · simp [hfile]
    · simp [hfile]

theorem looks_loadConfig (files : Files) (userDirectory : Option String)
    (explicit : Option String) :
    Looks files ((Files.disk userDirectory).loadConfig explicit)
      (Found files userDirectory explicit) (· ≠ .aborted) := by
  cases explicit with
  | some path =>
    apply (looks_readConfig files userDirectory path).congr
    intro config
    constructor
    · exact .given
    · rintro ⟨h⟩
      exact h
  | none =>
    apply (looks_firstConfig_cons (looks_userConfig files userDirectory)).congr
    intro config
    by_cases hplace : files.isFile Config.localPath
    · rw [if_pos hplace]
      constructor
      · exact .ofPlace hplace
      · intro h
        cases h with
        | ofPlace _ h => exact h
        | ofUser hnone _ _ _ => exact absurd hplace hnone
        | default hnone _ => exact absurd hplace hnone
    · rw [if_neg hplace]
      constructor
      · rintro (⟨directory, hdirectory, hfile, h⟩ | ⟨hnone, rfl⟩)
        · exact .ofUser hplace hdirectory hfile h
        · exact .default hplace hnone
      · intro h
        cases h with
        | ofPlace hfile _ => exact absurd hfile hplace
        | ofUser _ hdirectory hfile h => exact .inl ⟨_, hdirectory, hfile, h⟩
        | default _ hnone => exact .inr ⟨hnone, rfl⟩

theorem override_eq_ok {found : Config} :
    options.override found = .ok config ↔ Overrides options found config := by
  obtain ⟨dialect, maxDepth, functions⟩ := config
  unfold Options.override
  constructor
  · intro h
    split at h
    · cases h
    · rename_i depth hpositive hdepth
      cases h
      exact ⟨rfl, by rw [hdepth]; rfl, rfl, by rw [hdepth]; simpa using hpositive⟩
    · rename_i hdepth
      cases h
      exact ⟨rfl, by rw [hdepth]; rfl, rfl, by rw [hdepth]; simp⟩
  · rintro ⟨hdialect, hmaxDepth, hfunctions, hpositive⟩
    simp only at hdialect hmaxDepth hfunctions
    subst hdialect hmaxDepth hfunctions
    split
    · exact absurd ‹_› hpositive
    · rename_i hdepth
      rw [hdepth]
      rfl
    · rename_i hdepth
      rw [hdepth]
      rfl

/-- The exit code of a failure that is no abort. -/
theorem code_conversion {error : Error} (h : error ≠ .aborted) :
    (Failure.conversion error).code = 1 := by
  unfold Failure.code
  split
  · rename_i heq
    cases heq
    exact absurd rfl h
  · rfl

theorem looks_load (files : Files) (userDirectory : Option String) (options : Options) :
    Looks files (options.load (Files.disk userDirectory)).run
      (Configured files userDirectory options) (·.code = 1) := by
  obtain ⟨result, hrun, hresult, htells⟩ := looks_loadConfig files userDirectory options.config
  unfold Options.load
  apply Looks.afterLift hrun
  cases result with
  | error error =>
    refine looks_pure ?_ ?_
    · intro config
      simp only [reduceCtorEq, false_iff]
      rintro ⟨found, hfound, _⟩
      cases (hresult found).mpr hfound
    · rintro _ ⟨⟩
      exact code_conversion (htells error rfl)
  | ok found =>
    refine looks_pure ?_ ?_
    · intro config
      rw [override_eq_ok]
      constructor
      · intro h
        exact ⟨found, (hresult found).mp rfl, h⟩
      · rintro ⟨found', hfound', h⟩
        cases (hresult found').mpr hfound'
        exact h
    · intro failure h
      unfold Options.override at h
      split at h <;> cases h
      rfl

/-! ### The statement -/

/-- The statement that a run converts: the text of the file among the options, or else the input,
which stands for the file at its path if there is one. -/
inductive Supplies (files : Files) : Option String → Option String → String → Prop
  | file {path source : String} {input : Option String} :
    files.read path = .ok source → Supplies files (some path) input source
  | named {path source : String} :
    files.isFile path → files.read path = .ok source → Supplies files none (some path) source
  | text {source : String} :
    ¬ files.isFile source → Supplies files none (some source) source

theorem looks_readSource (files : Files) (userDirectory : Option String) (path : String) :
    Looks files (readSource (Files.disk userDirectory) path).run
      (files.read path = .ok ·) (·.code = 1) := by
  unfold readSource
  apply Looks.afterLift (run_read files userDirectory path)
  cases hread : files.read path with
  | error fault => exact looks_pure (by simp) (by rintro _ ⟨⟩; rfl)
  | ok source => exact looks_pure (by simp) nofun

theorem supplies_of_file {path source : String} {input : Option String} :
    Supplies files (some path) input source ↔ files.read path = .ok source := by
  constructor
  · rintro ⟨h⟩
    exact h
  · exact .file

theorem supplies_of_input {text source : String} : Supplies files none (some text) source ↔
    if files.isFile text then files.read text = .ok source else source = text := by
  split
  · rename_i hnamed
    constructor
    · intro h
      cases h with
      | named _ hread => exact hread
      | text hnone => exact absurd hnamed hnone
    · exact .named hnamed
  · rename_i hnone
    constructor
    · intro h
      cases h with
      | named hnamed _ => exact absurd hnamed hnone
      | text _ => rfl
    · rintro rfl
      exact .text hnone

theorem looks_source? (files : Files) (userDirectory : Option String) {options : Options}
    {input : Option String} (given : options.file.isSome ∨ input.isSome) :
    Looks files (source? (Files.disk userDirectory) options input).run
      (fun found => ∃ source, found = some source ∧ Supplies files options.file input source)
      (·.code = 1) := by
  unfold source?
  split
  · rename_i path hfile
    rw [hfile]
    simp only [supplies_of_file]
    exact (looks_readSource files userDirectory path).returnSome
  · rename_i text hfile
    rw [hfile]
    simp only [supplies_of_input]
    apply Looks.afterLift (run_isFile files userDirectory text)
    by_cases hnamed : files.isFile text
    · simp only [hnamed, if_true]
      exact (looks_readSource files userDirectory text).returnSome
    · simp only [hnamed]
      exact looks_pure (by simp [eq_comm]) nofun
  · rename_i hfile
    rw [hfile] at given
    simp at given

/-! ### The report of a run -/

theorem run_report {program : ExceptT Failure (StateM Files) Report}
    {result : Except Failure Report} (h : program.run.run files = (result, files')) :
    (do return reported (← program.run) : StateM Files Report).run files =
      (reported result, files') := by
  rw [StateT.run_bind, h]
  rfl

end JetSql.CommandLine
