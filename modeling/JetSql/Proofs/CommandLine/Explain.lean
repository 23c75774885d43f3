/-
What an explanation that fails has shown.

An explanation shows the tree of a statement and then renders it. It changes no file, but it is not
all or nothing, as a conversion is: **a run that fails has shown something exactly if the statement
was read and cannot be rendered**, and then it has shown the tree (`shown_of_failed`). This needs the
tree as text; where it is shown as data, nothing is rendered. `shown_despite_failure` is such a run.
-/

import JetSql.Proofs.CommandLine.Reading
import JetSql.Proofs.Renderer.Visits
import Mathlib

namespace JetSql.CommandLine

variable {files : Files} {userDirectory : Option String} {options : Options} {config : Config}
  {query : String} {json : Bool} {args : List String} {tree tree' : Node}

/-! ### Statements that are read and not rendered -/

/-- The statement is read as a tree, and the tree cannot be rendered. -/
def Unrendered (files : Files) (userDirectory : Option String) (options : Options) (query : String)
    (tree : Node) : Prop :=
  ∃ config error, Configured files userDirectory options config ∧
    parse query config.maxDepth = .ok tree ∧ (Renderer.ofConfig config).render tree = .error error

theorem unrendered_iff (hconfig : Configured files userDirectory options config) :
    Unrendered files userDirectory options query tree ↔
      parse query config.maxDepth = .ok tree ∧
        ∃ error, (Renderer.ofConfig config).render tree = .error error := by
  constructor
  · rintro ⟨config', error, hconfig', hparse, hrender⟩
    obtain rfl := (looks_load files userDirectory options).unique hconfig' hconfig
    exact ⟨hparse, error, hrender⟩
  · rintro ⟨hparse, error, hrender⟩
    exact ⟨config, error, hconfig, hparse, hrender⟩

theorem Unrendered.unique (h : Unrendered files userDirectory options query tree)
    (h' : Unrendered files userDirectory options query tree') : tree = tree' := by
  obtain ⟨config, _, hconfig, hparse, _⟩ := h
  exact Except.ok.inj (hparse.symm.trans ((unrendered_iff hconfig).mp h').1)

/-! ### What is shown -/

theorem treeText_ne_empty (query : String) (tree : Node) : treeText query tree ≠ "" := by
  intro h
  unfold treeText linesText at h
  simp only [List.cons_append, List.map_cons, String.join_cons] at h
  simp at h

/-- The reports of an explanation: nothing is shown, or all of it, or the tree before a failure. -/
inductive Explains (files : Files) (userDirectory : Option String) (options : Options)
    (query : String) (json : Bool) : Report → Prop
  | nothing {failure : Failure} : (∀ tree, ¬ Unrendered files userDirectory options query tree) →
    Explains files userDirectory options query json (failure.report "")
  | whole {out : String} :
    (json = false → ∀ tree, ¬ Unrendered files userDirectory options query tree) →
    Explains files userDirectory options query json ⟨0, out, ""⟩
  | tree {tree : Node} {failure : Failure} : json = false → failure.code = 1 →
    Unrendered files userDirectory options query tree →
    Explains files userDirectory options query json (failure.report (treeText query tree))

theorem explains_runExplain (files : Files) (userDirectory : Option String) (options : Options)
    (query : String) (json : Bool) :
    ∃ result, (runExplain (Files.disk userDirectory) options query json).run.run files =
      (result, files) ∧ Explains files userDirectory options query json (reported result) := by
  unfold runExplain
  obtain ⟨config, hconfig, hload⟩ | ⟨failure, _, hnone, hload⟩ :=
    (looks_load files userDirectory options).ok_or_error
  case inr =>
    refine ⟨.error failure, run_bind_error hload, .nothing ?_⟩
    rintro tree ⟨config, _, hconfig, _⟩
    exact hnone config hconfig
  rw [run_bind_ok hload]
  cases hparse : parse query config.maxDepth with
  | error error =>
    refine ⟨.error (.conversion error), rfl, .nothing ?_⟩
    intro tree h
    cases hparse.symm.trans ((unrendered_iff hconfig).mp h).1
  | ok tree =>
    cases json with
    | true => exact ⟨_, rfl, .whole nofun⟩
    | false =>
      cases hrender : (Renderer.ofConfig config).render tree with
      | ok sql =>
        refine ⟨.ok ⟨0, treeText query tree ++ renderingText config.dialect sql, ""⟩, ?_, .whole ?_⟩
        · dsimp only
          rw [hrender]
          rfl
        · intro _ tree' h
          obtain ⟨hparse', _, hrender'⟩ := (unrendered_iff hconfig).mp h
          cases hparse.symm.trans hparse'
          cases hrender.symm.trans hrender'
      | error error =>
        have hcode : (Failure.conversion error).code = 1 := by
          refine code_conversion ?_
          rintro rfl
          rcases category_of_render hrender with h | h | h | h <;> cases h
        refine ⟨.ok ((Failure.conversion error).report (treeText query tree)), ?_,
          .tree rfl hcode ?_⟩
        · dsimp only
          rw [hrender]
          rfl
        · exact ⟨config, error, hconfig, hparse, hrender⟩

theorem explains_run (userDirectory : Option String) (files : Files)
    (fit : Invocation.ofArguments? args = some ⟨options, .explain query json⟩) :
    ∃ report, (run (Files.disk userDirectory) args).run files = (report, files) ∧
      Explains files userDirectory options query json report := by
  obtain ⟨result, hrun, hexplains⟩ := explains_runExplain files userDirectory options query json
  refine ⟨reported result, ?_, hexplains⟩
  rw [run, fit]
  exact run_report hrun

/-- **An explanation changes no file, and if it fails it has shown something exactly if the statement
is read and cannot be rendered: the tree, unless it was to be shown as data.** -/
theorem shown_of_failed (userDirectory : Option String) (files : Files)
    (fit : Invocation.ofArguments? args = some ⟨options, .explain query json⟩) :
    let outcome := (run (Files.disk userDirectory) args).run files
    outcome.2 = files ∧
      (outcome.1.code = 1 ∧ outcome.1.out ≠ "" ↔
        json = false ∧ ∃ tree, Unrendered files userDirectory options query tree) ∧
      ∀ tree, json = false → Unrendered files userDirectory options query tree →
        outcome.1.out = treeText query tree := by
  intro outcome
  obtain ⟨report, hrun, hexplains⟩ := explains_run userDirectory files fit
  have houtcome : outcome = (report, files) := hrun
  rw [houtcome]
  refine ⟨rfl, ?_⟩
  cases hexplains with
  | nothing hnone =>
    constructor
    · constructor
      · rintro ⟨_, hout⟩
        exact absurd rfl hout
      · rintro ⟨_, tree, hunrendered⟩
        exact absurd hunrendered (hnone tree)
    · intro tree _ hunrendered
      exact absurd hunrendered (hnone tree)
  | whole hnone =>
    constructor
    · constructor
      · rintro ⟨hcode, _⟩
        cases hcode
      · rintro ⟨htext, tree, hunrendered⟩
        exact absurd hunrendered (hnone htext tree)
    · intro tree htext hunrendered
      exact absurd hunrendered (hnone htext tree)
  | tree htext hcode hunrendered =>
    constructor
    · exact ⟨fun _ => ⟨htext, _, hunrendered⟩, fun _ => ⟨hcode, treeText_ne_empty query _⟩⟩
    · intro tree' _ hunrendered'
      rw [hunrendered'.unique hunrendered]
      rfl

/-- What `SELECT #2/31/2024#` is read as. The date names no day. -/
def noDay : Node :=
  .query ⟨false, none, [.selectItem (.literal (.date "2/31/2024")) none], [], none, [], none, []⟩

theorem unrendered_noDay :
    Unrendered Files.system (some "home/.config") .empty "SELECT #2/31/2024#" noDay := by
  have hfound : Found Files.system (some "home/.config") none .default := by
    refine .default nofun ?_
    rintro directory ⟨⟩
    exact nofun
  refine ⟨.default, .badDate "2/31/2024", ⟨.default, hfound, rfl, rfl, rfl, nofun⟩, ?_, rfl⟩
  cbv

theorem shown_of_failed_noDay :
    Invocation.ofArguments? ["explain", "SELECT #2/31/2024#"] =
        some ⟨.empty, .explain "SELECT #2/31/2024#" false⟩ ∧
      let outcome := (run (Files.disk (some "home/.config")) ["explain", "SELECT #2/31/2024#"]).run
        Files.system
      outcome.2 = Files.system ∧ outcome.1.code = 1 ∧
        outcome.1.out = treeText "SELECT #2/31/2024#" noDay := by
  have fit : Invocation.ofArguments? ["explain", "SELECT #2/31/2024#"] =
      some ⟨.empty, .explain "SELECT #2/31/2024#" false⟩ := rfl
  obtain ⟨hfiles, hshown, htree⟩ := shown_of_failed (some "home/.config") Files.system fit
  obtain ⟨hcode, _⟩ := hshown.mpr ⟨rfl, noDay, unrendered_noDay⟩
  exact ⟨fit, hfiles, hcode, htree noDay rfl unrendered_noDay⟩

/-- **A run that fails may have shown something.** -/
theorem shown_despite_failure :
    let outcome := (run (Files.disk (some "home/.config")) ["explain", "SELECT #2/31/2024#"]).run
      Files.system
    outcome.1.code = 1 ∧ outcome.1.out ≠ "" := by
  have fit : Invocation.ofArguments? ["explain", "SELECT #2/31/2024#"] =
      some ⟨.empty, .explain "SELECT #2/31/2024#" false⟩ := rfl
  obtain ⟨report, hrun, hexplains⟩ := explains_run (some "home/.config") Files.system fit
  dsimp only
  rw [hrun]
  cases hexplains with
  | nothing hnone => exact absurd unrendered_noDay (hnone noDay)
  | whole hnone => exact absurd unrendered_noDay (hnone rfl noDay)
  | tree _ hcode _ => exact ⟨hcode, treeText_ne_empty _ _⟩

end JetSql.CommandLine
