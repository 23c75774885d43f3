/-
The limit of a conversion only ever cuts it short.

A tree is rendered level by level, and the limit is met where no level is left. The text of a node is
put together from the texts of the nodes below it and hands on their errors, so a rendering under a
smaller limit is cut short or comes to the same text or error; with the same law for reading, so is the
whole conversion.

* **`limitedTo_convert`:** under a smaller limit a conversion and a parse come to the same, or to an
  error that tells of the smaller limit and a depth beyond it.
-/

import JetSql.Convert
import JetSql.Proofs.Grammar.Limit
import JetSql.Proofs.ReadBack.Nesting

namespace JetSql

namespace Renderer

/-! ### Steps -/

section Steps

variable {α β : Type} {error : Error} {small large : Except Error α}

theorem cut_self (result : Except Error α) : Cut (.error error) result result :=
  .inr rfl

theorem cut_bind {next next' : α → Except Error β} (h : Cut (.error error) small large)
    (hnext : ∀ value, Cut (.error error) (next value) (next' value)) :
    Cut (.error error) (small >>= next) (large >>= next') := by
  rcases h with hstop | hsame
  · rw [hstop]
    exact .inl rfl
  · rw [hsame]
    cases large with
    | error e => exact .inr rfl
    | ok value => exact hnext value

theorem cut_mapM {f f' : α → Except Error β} (h : ∀ x, Cut (.error error) (f x) (f' x))
    (xs : List α) : Cut (.error error) (xs.mapM f) (xs.mapM f') := by
  induction xs with
  | nil => exact cut_self _
  | cons x xs ih =>
    rw [List.mapM_cons, List.mapM_cons]
    exact cut_bind (h x) fun _ => cut_bind ih fun _ => cut_self _

end Steps

/-! ### Nodes -/

section Nodes

variable {error : Error} {visit visit' : Node → Except Error String}
  (hvisit : ∀ node, Cut (.error error) (visit node) (visit' node))

include hvisit

theorem cut_listText (nodes : List Node) :
    Cut (.error error) (listText visit nodes) (listText visit' nodes) :=
  cut_bind (cut_mapM hvisit nodes) fun _ => cut_self _

theorem cut_clauseText (keyword : String) (clause : Option Node) :
    Cut (.error error) (clauseText visit keyword clause) (clauseText visit' keyword clause) := by
  cases clause with
  | none => exact cut_self _
  | some node => exact cut_bind (hvisit node) fun _ => cut_self _

theorem cut_clauseListText (keyword : String) (nodes : List Node) :
    Cut (.error error) (clauseListText visit keyword nodes)
      (clauseListText visit' keyword nodes) := by
  rw [clauseListText, clauseListText]
  split
  · exact cut_self _
  · exact cut_bind (cut_listText hvisit nodes) fun _ => cut_self _

theorem cut_selectText (renderer : Renderer) (clauses : Clauses Node) :
    Cut (.error error) (renderer.selectText visit clauses) (renderer.selectText visit' clauses) := by
  rw [selectText, selectText]
  refine cut_bind (cut_listText hvisit _) fun _ => ?_
  refine cut_bind (cut_clauseListText hvisit _ _) fun _ => ?_
  refine cut_bind (cut_clauseText hvisit _ _) fun _ => ?_
  refine cut_bind (cut_clauseListText hvisit _ _) fun _ => ?_
  refine cut_bind (cut_clauseText hvisit _ _) fun _ => ?_
  exact cut_bind (cut_clauseListText hvisit _ _) fun _ => cut_self _

theorem cut_conditionalText (condition thenValue elseValue : Node) :
    Cut (.error error) (conditionalText visit condition thenValue elseValue)
      (conditionalText visit' condition thenValue elseValue) :=
  cut_bind (hvisit condition) fun _ => cut_bind (hvisit thenValue) fun _ =>
    cut_bind (hvisit elseValue) fun _ => cut_self _

theorem cut_comparisonText (left op right : Node) :
    Cut (.error error) (comparisonText visit left op right) (comparisonText visit' left op right) := by
  have hwhole (left : Node) (rightText : String) : Cut (.error error)
      (do return (← visit left) ++ " " ++ (← visit op) ++ " " ++ rightText)
      (do return (← visit' left) ++ " " ++ (← visit' op) ++ " " ++ rightText) :=
    cut_bind (hvisit left) fun _ => cut_bind (hvisit op) fun _ => cut_self _
  unfold comparisonText
  split
  · exact cut_conditionalText hvisit _ _ _
  · split
    · split
      · exact cut_bind (cut_self _) (hwhole _)
      · exact cut_bind (hvisit _) (hwhole _)
    · exact cut_bind (hvisit right) (hwhole _)

/-- **The text of a node is cut short only where that of a node below it is.** -/
theorem cut_nodeText (renderer : Renderer) (node : Node) :
    Cut (.error error) (renderer.nodeText visit node) (renderer.nodeText visit' node) := by
  have hone {node : Node} (f : String → String) : Cut (.error error)
      (do return f (← visit node)) (do return f (← visit' node)) :=
    cut_bind (hvisit node) fun _ => cut_self _
  have htwo {left right : Node} (f : String → String → String) : Cut (.error error)
      (do return f (← visit left) (← visit right)) (do return f (← visit' left) (← visit' right)) :=
    cut_bind (hvisit left) fun _ => cut_bind (hvisit right) fun _ => cut_self _
  have hthree {first second third : Node} (f : String → String → String → String) :
      Cut (.error error) (do return f (← visit first) (← visit second) (← visit third))
        (do return f (← visit' first) (← visit' second) (← visit' third)) :=
    cut_bind (hvisit first) fun _ => cut_bind (hvisit second) fun _ =>
      cut_bind (hvisit third) fun _ => cut_self _
  cases node with
  | query clauses => exact cut_selectText hvisit renderer clauses
  | selectItem | tableRef | not | isNull | negate | grouped => exact hone _
  | logical => exact htwo _
  | join | between => exact hthree _
  | orderItem expr order =>
    cases order with
    | none => exact hvisit expr
    | some order => exact hone _
  | comparison left op right => exact cut_comparisonText hvisit left op right
  | inList expr list negated =>
    exact cut_bind (hvisit expr) fun _ => cut_bind (cut_listText hvisit list) fun _ => cut_self _
  | arithmetic left op right =>
    cases op with
    | concat => exact cut_bind (cut_mapM hvisit _) fun _ => cut_self _
    | _ => exact htwo _
  | conditional => exact cut_conditionalText hvisit _ _ _
  | call callee args => exact cut_bind (cut_listText hvisit args) fun _ => cut_self _
  | operator | identifier | literal | star | qualifiedStar | crosstab => exact cut_self _

end Nodes

/-! ### Trees -/

/-- The limit has no part in the text of a node. -/
theorem nodeText_withMaxDepth (renderer : Renderer) (maxDepth : Nat) :
    (renderer.withMaxDepth maxDepth).nodeText = renderer.nodeText := by
  funext visit node
  unfold nodeText
  rfl

/-- **A tree that is rendered with fewer levels is cut short or comes to the same.** -/
theorem cut_renderAt (renderer : Renderer) (maxDepth : Nat) {levels levels' : Nat}
    (hle : levels ≤ levels') (node : Node) :
    Cut (.error (.tooDeep (renderer.maxDepth + 1) renderer.maxDepth)) (renderer.renderAt levels node)
      ((renderer.withMaxDepth maxDepth).renderAt levels' node) := by
  induction levels generalizing levels' node with
  | zero => exact .inl rfl
  | succ levels ih =>
    obtain ⟨n, rfl⟩ : ∃ n, levels' = n + 1 := ⟨levels' - 1, by omega⟩
    rw [renderAt, renderAt, nodeText_withMaxDepth]
    exact cut_nodeText (ih (Nat.le_of_succ_le_succ hle)) renderer node

/-- Renames and the limit of a renderer are set apart from each other. -/
theorem ofConfig_withMaxDepth (config : Config) (maxDepth : Nat) :
    ofConfig { config with maxDepth } = (ofConfig config).withMaxDepth maxDepth := by
  rw [ofConfig, ofConfig]
  change List.foldl _ (((ofDialect config.dialect).withMaxDepth config.maxDepth).withMaxDepth maxDepth)
    config.functions.entries = _
  refine List.foldl_hom (fun renderer : Renderer => renderer.withMaxDepth maxDepth) ?_
  exact fun _ _ => rfl

theorem maxDepth_ofConfig (config : Config) : (ofConfig config).maxDepth = config.maxDepth := by
  have hsame := ofConfig_withMaxDepth config config.maxDepth
  rw [hsame]
  rfl

end Renderer

open Renderer

/-- **Two configurations that differ in their limits alone convert every text to the same, unless the
smaller limit ends the conversion with an error that tells of it and of a depth beyond it. The same
holds of parsing.** -/
theorem limitedTo_convert (source : String) :
    (∀ {config : Config} {limit : Nat}, config.maxDepth ≤ limit →
      LimitedTo config.maxDepth (convert config source)
        (convert { config with maxDepth := limit } source)) ∧
    ∀ {limit limit' : Nat}, limit ≤ limit' →
      LimitedTo limit (parse source limit) (parse source limit') := by
  refine ⟨fun {config limit} hle => ?_, fun hle => limitedTo_parse hle source⟩
  rw [convert, convert]
  rcases limitedTo_parse hle source with ⟨depth, hdepth, hstop⟩ | hsame
  · rw [hstop]
    exact .inl ⟨depth, hdepth, rfl⟩
  rw [hsame]
  cases parse source limit with
  | error e => exact .inr rfl
  | ok tree =>
    have hrender := cut_renderAt (ofConfig config) limit hle tree
    rw [← ofConfig_withMaxDepth, maxDepth_ofConfig] at hrender
    refine .of_cut (by omega : config.maxDepth < config.maxDepth + 1) ?_
    change Cut _ ((ofConfig config).render tree) (render _ tree)
    rw [render, render, maxDepth_ofConfig, maxDepth_ofConfig]
    exact hrender

open Grammar Node

/-- Parentheses around a number need a second level: the limit one ends the parse, and two does not. -/
theorem limitedTo_convert_grouped :
    (Config.mk .postgres 1 .empty).maxDepth ≤ 2 ∧
      LimitedTo 1 (convert ⟨.postgres, 1, .empty⟩ "SELECT (1)")
        (convert ⟨.postgres, 2, .empty⟩ "SELECT (1)") ∧
      parse "SELECT (1)" 2 = .ok (selecting (.grouped (number "1"))) ∧
      ∃ depth, 1 < depth ∧ parse "SELECT (1)" 1 = .error (.tooDeep depth 1) := by
  have hone : Formed .expr (number "1") := .literal (.whole (by decide) (by decide))
  have hlevels : (Node.grouped (number "1")).levels ≤ 2 - 1 :=
    levels_le_of_children rfl (by decide) (List.forall_mem_singleton.mpr (levels_leaf rfl rfl rfl))
  have hparse : parse "SELECT (1)" 2 = .ok (selecting (.grouped (number "1"))) :=
    parse_of_selecting (.grouped hone) hlevels rfl
  obtain ⟨hconvert, hcut⟩ := limitedTo_convert "SELECT (1)"
  refine ⟨by decide, hconvert (by decide : (Config.mk .postgres 1 .empty).maxDepth ≤ 2), hparse, ?_⟩
  refine (hcut (by decide : 1 ≤ 2)).resolve_right fun hsame => ?_
  have hfits := levels_le_of_read (read_of_parse (hsame.trans hparse))
  have hitem := (levels_le_iff.mp hfits).2.2 (.selectItem (.grouped (number "1")) none)
    (List.mem_singleton_self _)
  have hgrouped := (levels_le_iff.mp (Nat.le_trans (Nat.le_add_left ..) hitem)).2.2
    (.grouped (number "1")) (List.mem_singleton_self _)
  have hspends := Nat.le_trans (spends_le_levels _) (Nat.le_trans (Nat.le_add_left ..) hgrouped)
  exact absurd hspends (by decide)

end JetSql
