/-
Which rename is in force.

Renames come in three layers: those of the dialect, those of the configuration, and those that are
given to the renderer one after the other later on. All of them end up in one dictionary, by their
source names in upper case.

* **`get?_withRenames`:** of renames that are given one after the other, the last one that has the
  name up to case decides; only if there is none, what was in the dictionary before does.
* **`Renderer.InForce`** says this of all three layers, and `Renderer.CalledAs` what a function is
  called in the end. In a configuration the last entry is the one with the greatest source name.
* **`calledAs_of_validated`:** with any configuration that passes validation functions are called so,
  and what is listed are the renames in force. Configurations pass it when they are built from their
  parts and when they are read from settings.
-/

import JetSql.Proofs.Dictionary
import JetSql.Proofs.Renderer.Success
import JetSql.Proofs.Text.Case
import JetSql.Settings
import Mathlib.Tactic.ByContra

namespace JetSql

namespace Renderer

open Text

/-- The renderer with more renames, one after the other. -/
def withRenames (renderer : Renderer) (renames : List (String × String)) : Renderer :=
  renames.foldl (fun renderer (source, target) => renderer.rename source target) renderer

/-! ### One layer -/

/-- No rename is of the name. -/
def Unnamed (renames : List (String × String)) (name : String) : Prop :=
  ∀ entry ∈ renames, sameWord entry.1 name = false

/-- The last rename of the name has the target. -/
def IsLast (renames : List (String × String)) (name target : String) : Prop :=
  ∃ before source after, renames = before ++ (source, target) :: after ∧
    sameWord source name = true ∧ Unnamed after name

/-- Of the renames of the name, the one with the greatest source name has the target. -/
def IsGreatest (renames : List (String × String)) (name target : String) : Prop :=
  ∃ source, (source, target) ∈ renames ∧ sameWord source name = true ∧
    ∀ entry ∈ renames, sameWord entry.1 name = true → entry.1 ≤ source

variable {renderer : Renderer} {renames later : List (String × String)} {config : Config}
  {source name target target' : String}

theorem unnamed_concat : Unnamed (renames ++ [(source, target)]) name ↔
    Unnamed renames name ∧ sameWord source name = false := by
  simp only [Unnamed, List.forall_mem_append, List.forall_mem_singleton]

theorem isLast_concat : IsLast (renames ++ [(source, target')]) name target ↔
    if sameWord source name = true then target' = target else IsLast renames name target := by
  constructor
  · rintro ⟨before, source', after, heq, hsame, hafter⟩
    rcases List.eq_nil_or_concat after with rfl | ⟨after, last, rfl⟩
    · obtain ⟨rfl, hlast⟩ := List.append_inj' heq rfl
      obtain ⟨rfl, rfl⟩ := Prod.mk.inj (List.singleton_inj.mp hlast)
      rw [if_pos hsame]
    · rw [List.concat_eq_append, ← List.cons_append, ← List.append_assoc] at heq
      obtain ⟨rfl, hlast⟩ := List.append_inj' heq rfl
      obtain rfl := List.singleton_inj.mp hlast
      rw [List.concat_eq_append, unnamed_concat] at hafter
      rw [if_neg (Bool.not_eq_true _ ▸ hafter.2)]
      exact ⟨before, source', after, rfl, hsame, hafter.1⟩
  · split
    · rintro rfl
      exact ⟨renames, source, [], rfl, ‹_›, fun _ h => nomatch h⟩
    · rename_i hsource
      rintro ⟨before, source', after, rfl, hsame, hafter⟩
      exact ⟨before, source', after ++ [(source, target')], by simp, hsame,
        unnamed_concat.mpr ⟨hafter, Bool.not_eq_true _ ▸ hsource⟩⟩

theorem exists_isLast (h : ¬ Unnamed renames name) : ∃ target, IsLast renames name target := by
  induction renames using List.reverseRecOn with
  | nil => exact absurd (fun _ h => nomatch h) h
  | append_singleton renames entry ih =>
    obtain ⟨source, target⟩ := entry
    by_cases hsource : sameWord source name = true
    · exact ⟨target, isLast_concat.mpr (by rw [if_pos hsource])⟩
    · have hrenames : ¬ Unnamed renames name := fun hnone =>
        h (unnamed_concat.mpr ⟨hnone, Bool.not_eq_true _ ▸ hsource⟩)
      obtain ⟨target', hlast⟩ := ih hrenames
      exact ⟨target', isLast_concat.mpr (by rwa [if_neg hsource])⟩

/-- Where the source names ascend, the last one is the greatest. -/
theorem isLast_iff_isGreatest (h : renames.Pairwise fun entry entry' => entry.1 < entry'.1) :
    IsLast renames name target ↔ IsGreatest renames name target := by
  constructor
  · rintro ⟨before, source, after, rfl, hsame, hafter⟩
    refine ⟨source, by simp, hsame, fun entry hentry hentrySame => ?_⟩
    rcases List.mem_append.mp hentry with hbefore | hentry
    · exact ((List.pairwise_append.mp h).2.2 entry hbefore _ List.mem_cons_self).le
    rcases List.mem_cons.mp hentry with rfl | hlater
    · exact le_refl _
    · rw [hafter entry hlater] at hentrySame
      cases hentrySame
  · rintro ⟨source, hmem, hsame, hgreatest⟩
    obtain ⟨before, after, rfl⟩ := List.append_of_mem hmem
    refine ⟨before, source, after, rfl, hsame, fun entry hentry => ?_⟩
    by_contra hentrySame
    rw [Bool.not_eq_false] at hentrySame
    have hlt := List.rel_of_pairwise_cons (List.pairwise_append.mp h).2.1 hentry
    exact absurd hlt (not_lt.mpr (hgreatest entry (by simp [hentry]) hentrySame))

/-- **The last rename of a name decides, before those that were there.** -/
theorem get?_withRenames :
    (renderer.withRenames renames).renames.get? name.toUpper = some target ↔
      IsLast renames name target ∨
        Unnamed renames name ∧ renderer.renames.get? name.toUpper = some target := by
  induction renames using List.reverseRecOn with
  | nil =>
    have hnone : ¬ IsLast [] name target := by
      rintro ⟨before, source, after, heq, -⟩
      cases before <;> cases heq
    simp [hnone, Unnamed, withRenames]
  | append_singleton renames entry ih =>
    obtain ⟨source, target'⟩ := entry
    have hrename : renderer.withRenames (renames ++ [(source, target')]) =
        (renderer.withRenames renames).rename source target' := by
      rw [withRenames, List.foldl_append]
      rfl
    have hkey : name.toUpper = source.toUpper ↔ sameWord source name = true := by
      rw [sameWord_iff, eq_comm]
    rw [hrename, rename, Dictionary.get?_insert, isLast_concat, unnamed_concat]
    simp only [hkey]
    split
    · rename_i hsame
      simp [hsame]
    · rename_i hsame
      rw [ih]
      simp [hsame]

/-! ### Three layers -/

/-- The target of the rename of a name that is in force: the last of the later ones, else that of the
configuration with the greatest source name, else that of the dialect. -/
inductive InForce (config : Config) (later : List (String × String)) (name target : String) :
    Prop where
  | later : IsLast later name target → InForce config later name target
  | configured : Unnamed later name → IsGreatest config.functions.entries name target →
      InForce config later name target
  | builtIn {source : String} : Unnamed later name → Unnamed config.functions.entries name →
      (source, target) ∈ config.dialect.renames → sameWord source name = true →
        InForce config later name target

/-- What a function is called in the end: the target of its rename, or else its own name. -/
inductive CalledAs (config : Config) (later : List (String × String)) (name : String) :
    String → Prop where
  | renamed {target : String} : InForce config later name target → CalledAs config later name target
  | unchanged : Unnamed later name → Unnamed config.functions.entries name →
      Unnamed config.dialect.renames name → CalledAs config later name name

theorem toUpper_of_mem_renames {dialect : Dialect} :
    ∀ entry ∈ dialect.renames, entry.1.toUpper = entry.1 := by
  have hletters : ∀ entry ∈ dialect.renames,
      entry.1.toList.map Char.toUpper = entry.1.toList := by
    cases dialect <;> decide
  intro entry hentry
  exact toUpper_eq _ (hletters entry hentry)

theorem oneValued_renames (dialect : Dialect) : Dictionary.OneValued dialect.renames := by
  cases dialect <;> unfold Dictionary.OneValued <;> decide

theorem get?_ofDialect {dialect : Dialect} :
    (ofDialect dialect).renames.get? name.toUpper = some target ↔
      ∃ source, (source, target) ∈ dialect.renames ∧ sameWord source name = true := by
  rw [ofDialect, ← (Dictionary.sorted_ofList _).mem_iff,
    Dictionary.mem_ofList_iff (oneValued_renames dialect)]
  constructor
  · intro hmem
    exact ⟨name.toUpper, hmem, sameWord_iff.mpr (toUpper_toUpper name)⟩
  · rintro ⟨source, hmem, hsame⟩
    rwa [← sameWord_iff.mp hsame, toUpper_of_mem_renames _ hmem]

/-- **What is found in the dictionary is the rename in force.** -/
theorem get?_iff_inForce (hsorted : config.functions.Sorted) :
    ((ofConfig config).withRenames later).renames.get? name.toUpper = some target ↔
      InForce config later name target := by
  have hconfig : ofConfig config = ((ofDialect config.dialect).withMaxDepth
      config.maxDepth).withRenames config.functions.entries := rfl
  have hdialect : ((ofDialect config.dialect).withMaxDepth config.maxDepth).renames =
      (ofDialect config.dialect).renames := rfl
  rw [get?_withRenames, hconfig, get?_withRenames, isLast_iff_isGreatest hsorted, hdialect,
    get?_ofDialect]
  constructor
  · rintro (hlast | ⟨hlater, hgreatest | ⟨hconfigured, source, hmem, hsame⟩⟩)
    · exact .later hlast
    · exact .configured hlater hgreatest
    · exact .builtIn hlater hconfigured hmem hsame
  · rintro (hlast | ⟨hlater, hgreatest⟩ | ⟨hlater, hconfigured, hmem, hsame⟩)
    · exact .inl hlast
    · exact .inr ⟨hlater, .inl hgreatest⟩
    · exact .inr ⟨hlater, .inr ⟨hconfigured, _, hmem, hsame⟩⟩

/-- A name without a rename in force is in none of the layers. -/
theorem get?_eq_none_iff (hsorted : config.functions.Sorted) :
    ((ofConfig config).withRenames later).renames.get? name.toUpper = none ↔
      Unnamed later name ∧ Unnamed config.functions.entries name ∧
        Unnamed config.dialect.renames name := by
  rw [Option.eq_none_iff_forall_ne_some]
  simp only [ne_eq, get?_iff_inForce hsorted]
  constructor
  · intro hnone
    have hlater : Unnamed later name := by
      by_contra h
      obtain ⟨target, hlast⟩ := exists_isLast h
      exact hnone target (.later hlast)
    have hconfigured : Unnamed config.functions.entries name := by
      by_contra h
      obtain ⟨target, hlast⟩ := exists_isLast h
      exact hnone target (.configured hlater ((isLast_iff_isGreatest hsorted).mp hlast))
    refine ⟨hlater, hconfigured, fun entry hentry => ?_⟩
    by_contra h
    exact hnone entry.2 (.builtIn hlater hconfigured hentry (Bool.not_eq_false _ ▸ h))
  · rintro ⟨hlater, hconfigured, hbuiltIn⟩ target
      (⟨_, source, _, rfl, hsame, -⟩ | ⟨-, source, hmem, hsame, -⟩ | ⟨-, -, hmem, hsame⟩)
    · exact absurd hsame (by simp [hlater (source, target)])
    · exact absurd hsame (by simp [hconfigured _ hmem])
    · exact absurd hsame (by simp [hbuiltIn _ hmem])

/-- **What a function is called is its target name.** -/
theorem calledAs_iff (hsorted : config.functions.Sorted) : CalledAs config later name target ↔
    ((ofConfig config).withRenames later).targetName name = target := by
  rw [targetName]
  cases hfound : ((ofConfig config).withRenames later).renames.get? name.toUpper with
  | none =>
    obtain ⟨hlater, hconfigured, hbuiltIn⟩ := (get?_eq_none_iff hsorted).mp hfound
    constructor
    · rintro (hforce | -)
      · rw [(get?_iff_inForce hsorted).mpr hforce] at hfound
        cases hfound
      · rfl
    · rintro rfl
      exact .unchanged hlater hconfigured hbuiltIn
  | some found =>
    constructor
    · rintro (hforce | ⟨hlater, hconfigured, hbuiltIn⟩)
      · rw [(get?_iff_inForce hsorted).mpr hforce] at hfound
        exact (Option.some.inj hfound).symm
      · rw [(get?_eq_none_iff hsorted).mpr ⟨hlater, hconfigured, hbuiltIn⟩] at hfound
        cases hfound
    · rintro rfl
      exact .renamed ((get?_iff_inForce hsorted).mp hfound)

/-! ### The listing -/

theorem sorted_withRenames (h : renderer.renames.Sorted) :
    (renderer.withRenames renames).renames.Sorted :=
  List.foldlRecOn renames _ (motive := fun renderer : Renderer => renderer.renames.Sorted) h
    fun _ hrenderer entry _ => hrenderer.insert entry.1.toUpper entry.2

/-- The source names are in upper case. -/
def ListsUpper (renderer : Renderer) : Prop :=
  ∀ entry ∈ renderer.renames.entries, entry.1.toUpper = entry.1

theorem ListsUpper.withRenames (h : renderer.ListsUpper) :
    (renderer.withRenames renames).ListsUpper :=
  List.foldlRecOn renames _ (motive := ListsUpper) h fun _ hrenderer entry _ =>
    Dictionary.forall_mem_insertEntry (toUpper_toUpper entry.1) hrenderer

/-- **What is listed are the renames in force**, each under its source name in upper case. -/
theorem mem_entries_iff (hsorted : config.functions.Sorted) :
    (source, target) ∈ ((ofConfig config).withRenames later).renames.entries ↔
      source.toUpper = source ∧ InForce config later source target := by
  have hlisted : ((ofConfig config).withRenames later).renames.Sorted :=
    sorted_withRenames (sorted_withRenames (Dictionary.sorted_ofList _))
  have hupper : ((ofConfig config).withRenames later).ListsUpper :=
    ListsUpper.withRenames (ListsUpper.withRenames
      (Dictionary.forall_mem_ofList toUpper_of_mem_renames))
  rw [← get?_iff_inForce hsorted]
  constructor
  · intro hmem
    have hsource := hupper _ hmem
    exact ⟨hsource, by rw [hsource, ← hlisted.mem_iff]; exact hmem⟩
  · rintro ⟨hsource, hfound⟩
    rwa [hsource, ← hlisted.mem_iff] at hfound

end Renderer

open Renderer

/-! ### Configurations -/

/-- A configuration whose renames were put in one after the other, and that passed validation. -/
def Config.Validated (config : Config) : Prop :=
  (∃ pairs, config.functions = .ofList pairs) ∧ config.validate = .ok config

namespace Config

variable {config config' : Config} {dialectName : Option String} {maxDepth : Option Nat}
  {pairs pairs' : List (String × String)} {source : String}

theorem Validated.sorted (h : config.Validated) : config.functions.Sorted := by
  obtain ⟨⟨pairs, hpairs⟩, -⟩ := h
  rw [hpairs]
  exact Dictionary.sorted_ofList pairs

theorem eq_of_validate (h : config.validate = .ok config') : config = config' := by
  rw [validate] at h
  split at h
  · exact Except.ok.inj h
  · cases h

theorem validated_of_validate (hpairs : ∃ pairs, config.functions = .ofList pairs)
    (h : config.validate = .ok config') : config'.Validated := by
  obtain rfl := eq_of_validate h
  exact ⟨hpairs, h⟩

theorem validated_of_build (h : build dialectName maxDepth pairs = .ok config) :
    config.Validated := by
  obtain ⟨dialect, -, h⟩ := bind_eq_ok.mp h
  exact validated_of_validate ⟨pairs, rfl⟩ h

theorem exists_ofList_of_functions? {value : Toml.Value} {functions : Dictionary}
    (h : Settings.functions? value = some functions) : ∃ pairs, functions = .ofList pairs := by
  unfold Settings.functions? at h
  split at h
  · obtain ⟨pairs, -, rfl⟩ := Option.map_eq_some_iff.mp h
    exact ⟨pairs, rfl⟩
  · exact ⟨_, (Option.some.inj h).symm⟩
  · cases h

/-- A setting puts a whole dictionary in the place of the renames, or leaves them. -/
theorem exists_ofList_of_withSetting? {setting : String × Toml.Value}
    (hpairs : ∃ pairs, config.functions = .ofList pairs)
    (h : Settings.withSetting? config setting = some config') :
    ∃ pairs, config'.functions = .ofList pairs := by
  obtain ⟨key, value⟩ := setting
  simp only [Settings.withSetting?] at h
  split at h
  · obtain ⟨dialect, -, rfl⟩ := Option.map_eq_some_iff.mp h
    exact hpairs
  split at h
  · obtain ⟨maxDepth, -, rfl⟩ := Option.map_eq_some_iff.mp h
    exact hpairs
  split at h
  · obtain ⟨functions, hfunctions, rfl⟩ := Option.map_eq_some_iff.mp h
    exact exists_ofList_of_functions? hfunctions
  · cases h

theorem exists_ofList_of_foldlM {settings : List (String × Toml.Value)}
    (hpairs : ∃ pairs, config.functions = .ofList pairs)
    (h : settings.foldlM Settings.withSetting? config = some config') :
    ∃ pairs, config'.functions = .ofList pairs := by
  induction settings generalizing config with
  | nil =>
    obtain rfl := Option.some.inj h
    exact hpairs
  | cons setting settings ih =>
    rw [List.foldlM_cons] at h
    obtain ⟨middle, hmiddle, h⟩ := Option.bind_eq_some_iff.mp h
    exact ih (exists_ofList_of_withSetting? hpairs hmiddle) h

theorem validated_of_ofSettings (h : ofSettings source = .ok config) : config.Validated := by
  rw [ofSettings] at h
  split at h
  · rename_i read hread
    obtain ⟨settings, -, hfold⟩ := Option.bind_eq_some_iff.mp hread
    exact validated_of_validate (exists_ofList_of_foldlM ⟨[], rfl⟩ hfold) h
  · cases h

theorem build_congr (hvalued : Dictionary.OneValued pairs)
    (hsame : ∀ pair, pair ∈ pairs' ↔ pair ∈ pairs) :
    build dialectName maxDepth pairs' = build dialectName maxDepth pairs := by
  rw [build, Dictionary.ofList_congr hvalued hsame, build]

end Config

/-- **The renames that apply.** Every function is called by one name, the one that the layers give it,
and that name is not looked up again. The renames in force are listed each once under its source
name in upper case, in ascending order. The order in which the pairs of a configuration are added
makes no difference, unless they give one source name two targets. -/
theorem calledAs_of_validated {config : Config} (h : config.Validated)
    (later : List (String × String)) :
    (∀ name, ∃! target, CalledAs config later name target) ∧
      (∀ {callee target}, CalledAs config later callee target → ∀ levels args,
        ((ofConfig config).withRenames later).renderAt (levels + 1) (.call callee args) = do
          return target ++ "(" ++
            (← listText (((ofConfig config).withRenames later).renderAt levels) args) ++ ")") ∧
      ((ofConfig config).withRenames later).renames.Sorted ∧
      (∀ source target, (source, target) ∈ ((ofConfig config).withRenames later).renames.entries ↔
        source.toUpper = source ∧ InForce config later source target) ∧
      ∀ dialectName maxDepth pairs pairs', Dictionary.OneValued pairs →
        (∀ pair, pair ∈ pairs' ↔ pair ∈ pairs) →
          Config.build dialectName maxDepth pairs' = Config.build dialectName maxDepth pairs := by
  have hsorted := h.sorted
  refine ⟨fun name => ?_, fun hcalled levels args => ?_, ?_, fun source target => ?_, ?_⟩
  · exact ⟨_, (calledAs_iff hsorted).mpr rfl, fun target h => ((calledAs_iff hsorted).mp h).symm⟩
  · rw [← (calledAs_iff hsorted).mp hcalled]
    rfl
  · exact sorted_withRenames (sorted_withRenames (Dictionary.sorted_ofList _))
  · exact mem_entries_iff hsorted
  · exact fun _ _ _ _ => Config.build_congr

/-- A configuration with two entries of one name up to case. -/
def cased : Config :=
  ⟨.mysql, 64, ⟨[("Nz", "A"), ("nz", "B")]⟩⟩

/-- The entry in small letters wins; a later rename to the name is not renamed once more. -/
theorem calledAs_of_validated_cased :
    cased.Validated ∧ Config.build (some "mysql") none [("nz", "B"), ("Nz", "A")] = .ok cased ∧
      Config.build (some "mysql") none [("Nz", "A"), ("nz", "B")] = .ok cased ∧
      ((ofConfig cased).withRenames [("Mid", "NZ")]).renderAt 2 (.call "mid" [.star]) =
        .ok "NZ(*)" ∧
      ("NZ", "B") ∈ ((ofConfig cased).withRenames [("Mid", "NZ")]).renames.entries := by
  have hdialect : Dialect.ofName "mysql" = .ok .mysql := by
    rw [Dialect.ofName, Text.toLower_eq "mysql" (by decide)]
    rfl
  have hfunctions : Dictionary.ofList [("nz", "B"), ("Nz", "A")] = cased.functions := by decide
  have hbuild : Config.build (some "mysql") none [("nz", "B"), ("Nz", "A")] = .ok cased := by
    rw [Config.build, Option.map_some, Option.getD_some, hdialect, hfunctions]
    rfl
  have hvalidated : cased.Validated := Config.validated_of_build hbuild
  obtain ⟨-, hcall, -, hlisted, horder⟩ := calledAs_of_validated hvalidated [("Mid", "NZ")]
  have hmid : InForce cased [("Mid", "NZ")] "mid" "NZ" :=
    .later ⟨[], "Mid", [], rfl, by rw [Text.sameWord_eq_decide]; decide, nofun⟩
  have hother : Text.sameWord "Mid" "NZ" = false := by rw [Text.sameWord_eq_decide]; decide
  have hnz : InForce cased [("Mid", "NZ")] "NZ" "B" :=
    .configured (List.forall_mem_singleton.mpr hother)
      ⟨"nz", by decide, by rw [Text.sameWord_eq_decide]; decide, List.forall_mem_cons.mpr
        ⟨fun _ => by decide, List.forall_mem_singleton.mpr fun _ => le_refl _⟩⟩
  have hupper : "NZ".toUpper = "NZ" := Text.toUpper_eq _ (by decide)
  refine ⟨hvalidated, hbuild, (horder _ _ _ _ ?_ ?_).trans hbuild, ?_, (hlisted "NZ" "B").mpr ⟨hupper, hnz⟩⟩
  · unfold Dictionary.OneValued
    decide
  · exact fun pair => by simp [or_comm]
  · rw [hcall (.renamed hmid) 1]
    rfl

end JetSql
