/-
What the walk through a tree meets.

A node holds other nodes in its fields, one or more in each. `Holds` says which, with one rule for
every field of every construct, and a path of fields from the root is what tells two nodes of a tree
apart, even if they are the same construct. The walk is told by its paths.

* `Traverses` is what there is to say of a walk: every path is gone once, and to the depth of its
  length; a node comes before what it holds, and what is in an earlier field before what is in a later.
* **`traverses_walk`:** the walk traverses every tree.
-/

import JetSql.Tree.Basic
import Mathlib.Data.List.Forall2
import Mathlib.Data.Prod.Basic

namespace JetSql.Node

/-! ### Fields -/

/-- A field that holds a node; a list has one for each of its places. -/
inductive Field where
  | items (index : Nat) | tables (index : Nat) | condition | groups (index : Nat) | having
  | orders (index : Nat) | expr | table | left | op | right | on | list (index : Nat) | low | high
  | thenValue | elseValue | args (index : Nat) | value | select | pivot
deriving DecidableEq, Repr

/-- The fields of every construct that hold nodes, and what they hold. -/
inductive Holds : Node → Field → Node → Prop where
  | items {clauses : Clauses Node} {index : Nat} {child : Node} :
      clauses.items[index]? = some child → Holds (query clauses) (.items index) child
  | tables {clauses : Clauses Node} {index : Nat} {child : Node} :
      clauses.tables[index]? = some child → Holds (query clauses) (.tables index) child
  | filter {clauses : Clauses Node} {child : Node} :
      clauses.condition = some child → Holds (query clauses) .condition child
  | groups {clauses : Clauses Node} {index : Nat} {child : Node} :
      clauses.groups[index]? = some child → Holds (query clauses) (.groups index) child
  | having {clauses : Clauses Node} {child : Node} :
      clauses.having = some child → Holds (query clauses) .having child
  | orders {clauses : Clauses Node} {index : Nat} {child : Node} :
      clauses.orders[index]? = some child → Holds (query clauses) (.orders index) child
  | selectItem {expr : Node} {asName : Option Part} : Holds (selectItem expr asName) .expr expr
  | tableRef {table : Node} {asName : Option Part} : Holds (tableRef table asName) .table table
  | joinLeft {left right on : Node} {kind : JoinKind} : Holds (join left kind right on) .left left
  | joinRight {left right on : Node} {kind : JoinKind} : Holds (join left kind right on) .right right
  | joinOn {left right on : Node} {kind : JoinKind} : Holds (join left kind right on) .on on
  | orderItem {expr : Node} {order : Option SortOrder} : Holds (orderItem expr order) .expr expr
  | logicalLeft {left right : Node} {op : LogicOp} : Holds (logical left op right) .left left
  | logicalRight {left right : Node} {op : LogicOp} : Holds (logical left op right) .right right
  | not {expr : Node} : Holds (not expr) .expr expr
  | comparisonLeft {left op right : Node} : Holds (comparison left op right) .left left
  | comparisonOp {left op right : Node} : Holds (comparison left op right) .op op
  | comparisonRight {left op right : Node} : Holds (comparison left op right) .right right
  | isNull {expr : Node} {negated : Bool} : Holds (isNull expr negated) .expr expr
  | inListExpr {expr : Node} {list : List Node} {negated : Bool} :
      Holds (inList expr list negated) .expr expr
  | inList {expr child : Node} {list : List Node} {negated : Bool} {index : Nat} :
      list[index]? = some child → Holds (inList expr list negated) (.list index) child
  | betweenExpr {expr low high : Node} {negated : Bool} :
      Holds (between expr low high negated) .expr expr
  | betweenLow {expr low high : Node} {negated : Bool} : Holds (between expr low high negated) .low low
  | betweenHigh {expr low high : Node} {negated : Bool} :
      Holds (between expr low high negated) .high high
  | arithmeticLeft {left right : Node} {op : ArithOp} : Holds (arithmetic left op right) .left left
  | arithmeticRight {left right : Node} {op : ArithOp} : Holds (arithmetic left op right) .right right
  | negate {expr : Node} : Holds (negate expr) .expr expr
  | condition {condition thenValue elseValue : Node} :
      Holds (conditional condition thenValue elseValue) .condition condition
  | thenValue {condition thenValue elseValue : Node} :
      Holds (conditional condition thenValue elseValue) .thenValue thenValue
  | elseValue {condition thenValue elseValue : Node} :
      Holds (conditional condition thenValue elseValue) .elseValue elseValue
  | call {callee : String} {args : List Node} {child : Node} {index : Nat} :
      args[index]? = some child → Holds (call callee args) (.args index) child
  | grouped {expr : Node} : Holds (grouped expr) .expr expr
  | value {value select pivot : Node} : Holds (crosstab value select pivot) .value value
  | select {value select pivot : Node} : Holds (crosstab value select pivot) .select select
  | pivot {value select pivot : Node} : Holds (crosstab value select pivot) .pivot pivot

/-- Where a field stands in its construct, and in its list. -/
def Field.place : Field → Nat × Nat
  | items index => (0, index)
  | tables index => (1, index)
  | condition => (2, 0)
  | groups index => (3, index)
  | having => (4, 0)
  | orders index => (5, index)
  | expr | table | left | value => (0, 0)
  | args index => (0, index)
  | op | low | select => (1, 0)
  | list index => (1, index)
  | right | high | pivot => (2, 0)
  | on | thenValue => (3, 0)
  | elseValue => (4, 0)

/-- A field is written before another one of the same construct. -/
def Field.Before (field other : Field) : Prop :=
  Prod.Lex (· < ·) (· < ·) field.place other.place

/-! ### Paths -/

/-- A path leads from a node to the node itself, or through a field to what is further down. -/
inductive Reaches : Node → List Field → Node → Prop where
  | root {node : Node} : Reaches node [] node
  | down {node child target : Node} {field : Field} {path : List Field} :
      Holds node field child → Reaches child path target → Reaches node (field :: path) target

/-- Entries with a depth and a node go through a tree along some paths: each entry is where its path
leads, as deep below the root as the path is long; no path is gone twice, none is left out, and they
are in the order of the text, what is held after what holds it. -/
structure Traverses (tree : Node) (depth : Nat) (paths : List (List Field))
    (entries : List (Nat × Node)) : Prop where
  found : List.Forall₂
    (fun path entry => tree.Reaches path entry.2 ∧ entry.1 = depth + path.length) paths entries
  once : paths.Nodup
  complete : ∀ {path : List Field} {node : Node}, tree.Reaches path node → path ∈ paths
  ordered : paths.Pairwise (List.Lex Field.Before)

/-! ### The fields of a node, listed -/

/-- The places of a list, each with what it holds. -/
def places (field : Nat → Field) (nodes : List Node) : List (Field × Node) :=
  nodes.mapIdx fun index node => (field index, node)

/-- What a node holds, field by field. -/
def fields : Node → List (Field × Node)
  | query clauses =>
    places .items clauses.items ++ places .tables clauses.tables ++
      clauses.condition.toList.map (Field.condition, ·) ++ places .groups clauses.groups ++
      clauses.having.toList.map (Field.having, ·) ++ places .orders clauses.orders
  | selectItem expr _ | orderItem expr _ | not expr | negate expr | isNull expr _ | grouped expr =>
    [(.expr, expr)]
  | tableRef table _ => [(.table, table)]
  | join left _ right on => [(.left, left), (.right, right), (.on, on)]
  | inList expr list _ => (.expr, expr) :: places .list list
  | between expr low high _ => [(.expr, expr), (.low, low), (.high, high)]
  | logical left _ right | arithmetic left _ right => [(.left, left), (.right, right)]
  | comparison left op right => [(.left, left), (.op, op), (.right, right)]
  | conditional condition thenValue elseValue =>
    [(.condition, condition), (.thenValue, thenValue), (.elseValue, elseValue)]
  | call _ args => places .args args
  | crosstab value select pivot => [(.value, value), (.select, select), (.pivot, pivot)]
  | operator _ | identifier _ | literal _ | star | qualifiedStar _ => []

variable {node child : Node} {field : Field}

theorem mem_places {index : Nat → Field} {nodes : List Node} :
    (field, child) ∈ places index nodes ↔ ∃ i, index i = field ∧ nodes[i]? = some child := by
  simp only [places, List.mem_mapIdx, Prod.mk.injEq, List.getElem?_eq_some_iff]
  constructor
  · rintro ⟨i, hi, rfl, rfl⟩
    exact ⟨i, rfl, hi, rfl⟩
  · rintro ⟨i, rfl, hi, rfl⟩
    exact ⟨i, hi, rfl, rfl⟩

theorem map_snd_places (index : Nat → Field) (nodes : List Node) :
    (places index nodes).map Prod.snd = nodes := by
  apply List.ext_getElem?
  intro i
  simp [places, Function.comp_def]

/-- The fields hold the children, in their order. -/
theorem map_snd_fields (node : Node) : node.fields.map Prod.snd = node.children := by
  cases node with
  | query clauses =>
    simp [fields, children, Clauses.nodes, map_snd_places, Function.comp_def]
  | inList | call => simp [fields, children, map_snd_places]
  | _ => rfl

theorem mem_fields_iff : (field, child) ∈ node.fields ↔ Holds node field child := by
  constructor
  · intro h
    cases node with
    | query clauses =>
      simp only [fields, List.mem_append, mem_places, List.mem_map, Option.mem_toList,
        Prod.mk.injEq] at h
      rcases h with ((((⟨_, rfl, h⟩ | ⟨_, rfl, h⟩) | ⟨_, h, rfl, rfl⟩) | ⟨_, rfl, h⟩) |
        ⟨_, h, rfl, rfl⟩) | ⟨_, rfl, h⟩
      · exact .items h
      · exact .tables h
      · exact .filter h
      · exact .groups h
      · exact .having h
      · exact .orders h
    | inList =>
      simp only [fields, List.mem_cons, Prod.mk.injEq, mem_places] at h
      rcases h with ⟨rfl, rfl⟩ | ⟨_, rfl, h⟩
      · exact .inListExpr
      · exact .inList h
    | call =>
      obtain ⟨_, rfl, hchild⟩ := mem_places.mp h
      exact .call hchild
    | operator | identifier | literal | star | qualifiedStar => cases h
    | selectItem | tableRef | orderItem | not | isNull | negate | grouped =>
      simp only [fields, List.mem_singleton, Prod.mk.injEq] at h
      obtain ⟨rfl, rfl⟩ := h
      constructor
    | logical | arithmetic =>
      simp only [fields, List.mem_cons, List.not_mem_nil, or_false, Prod.mk.injEq] at h
      rcases h with ⟨rfl, rfl⟩ | ⟨rfl, rfl⟩ <;> constructor
    | join | comparison | between | conditional | crosstab =>
      simp only [fields, List.mem_cons, List.not_mem_nil, or_false, Prod.mk.injEq] at h
      rcases h with ⟨rfl, rfl⟩ | ⟨rfl, rfl⟩ | ⟨rfl, rfl⟩ <;> constructor
  · intro h
    cases h <;> simp_all [fields, mem_places]

/-! ### Fields in their order -/

/-- Entries are in the order of their fields. -/
def InOrder (entries : List (Field × Node)) : Prop :=
  entries.Pairwise fun entry other => entry.1.Before other.1

theorem inOrder_places (index : Nat → Field) {n : Nat} (hindex : ∀ i, (index i).place = (n, i))
    (nodes : List Node) : InOrder (places index nodes) := by
  rw [InOrder, List.pairwise_iff_getElem]
  intro i j hi hj hlt
  simp only [places, List.getElem_mapIdx, Field.Before, hindex]
  exact .right _ hlt

/-- Fields that stand behind others may follow them. -/
theorem InOrder.append {entries others : List (Field × Node)} (h : InOrder entries)
    (h' : InOrder others)
    (hbehind : ∀ entry ∈ entries, ∀ other ∈ others, entry.1.place.1 < other.1.place.1) :
    InOrder (entries ++ others) :=
  List.pairwise_append.mpr ⟨h, h', fun entry hentry other hother =>
    Prod.Lex.left _ _ (hbehind entry hentry other hother)⟩

theorem inOrder_fields (node : Node) : InOrder node.fields := by
  have hone (field : Field) (clause : Option Node) :
      InOrder (clause.toList.map (field, ·)) := by
    cases clause <;> simp [InOrder]
  cases node with
  | query clauses =>
    have hitems := inOrder_places .items (fun _ => rfl) clauses.items
    have htables := inOrder_places .tables (fun _ => rfl) clauses.tables
    have hgroups := inOrder_places .groups (fun _ => rfl) clauses.groups
    have horders := inOrder_places .orders (fun _ => rfl) clauses.orders
    refine ((((hitems.append htables ?_).append (hone _ _) ?_).append hgroups ?_).append
      (hone _ _) ?_).append horders ?_
    all_goals
      rintro ⟨field, child⟩ hentry ⟨other, child'⟩ hother
      simp only [List.mem_append, mem_places, List.mem_map, Prod.mk.injEq] at hentry hother
      grind [Field.place]
  | inList expr list _ =>
    have hlist := inOrder_places .list (fun _ => rfl) list
    have hexpr : InOrder [(.expr, expr)] := List.pairwise_singleton ..
    refine hexpr.append hlist ?_
    rintro entry hentry ⟨other, child⟩ hother
    obtain rfl := List.mem_singleton.mp hentry
    obtain ⟨_, rfl, -⟩ := mem_places.mp hother
    exact Nat.zero_lt_one
  | call _ args => exact inOrder_places .args (fun _ => rfl) args
  | _ => simp [fields, InOrder, Field.Before, Field.place, Prod.lex_iff]

/-! ### The paths of a tree -/

theorem mem_children_of_mem_fields (h : (field, child) ∈ node.fields) : child ∈ node.children := by
  rw [← map_snd_fields]
  exact List.mem_map_of_mem h

/-- The paths of a tree, in the order of the walk. -/
def paths (node : Node) : List (List Field) :=
  [] :: node.fields.attach.flatMap fun entry => (paths entry.1.2).map (entry.1.1 :: ·)
termination_by node
decreasing_by exact sizeOf_lt_of_mem_children (mem_children_of_mem_fields entry.2)

theorem paths_eq (node : Node) :
    node.paths = [] :: node.fields.flatMap fun entry => entry.2.paths.map (entry.1 :: ·) := by
  rw [paths, List.flatMap_def, List.flatMap_def,
    List.attach_map_val (f := fun entry : Field × Node => entry.2.paths.map (entry.1 :: ·))]

theorem mem_paths_iff {path : List Field} : path ∈ node.paths ↔ ∃ target, Reaches node path target := by
  induction path generalizing node with
  | nil =>
    rw [paths_eq]
    exact ⟨fun _ => ⟨node, .root⟩, fun _ => List.mem_cons_self⟩
  | cons field path ih =>
    rw [paths_eq]
    simp only [List.mem_cons, reduceCtorEq, false_or, List.mem_flatMap, List.mem_map,
      List.cons.injEq, Prod.exists]
    constructor
    · rintro ⟨_, child, hfield, _, hpath, rfl, rfl⟩
      obtain ⟨target, hreaches⟩ := ih.mp hpath
      exact ⟨target, .down (mem_fields_iff.mp hfield) hreaches⟩
    · rintro ⟨target, hreaches⟩
      cases hreaches with
      | down hholds hreaches =>
        exact ⟨field, _, mem_fields_iff.mpr hholds, path, ih.mpr ⟨target, hreaches⟩, rfl, rfl⟩

/-- Paths that part at a node are in the order of the fields that they take there. -/
theorem pairwise_paths (node : Node) : node.paths.Pairwise (List.Lex Field.Before) := by
  induction node using inductionOnChildren with
  | step node ih =>
    rw [paths_eq, List.pairwise_cons, List.pairwise_flatMap]
    refine ⟨fun path hpath => ?_, fun entry hentry => ?_, ?_⟩
    · obtain ⟨entry, -, hpath⟩ := List.mem_flatMap.mp hpath
      obtain ⟨path, -, rfl⟩ := List.mem_map.mp hpath
      exact .nil
    · rw [List.pairwise_map]
      exact (ih entry.2 (mem_children_of_mem_fields hentry)).imp .cons
    · refine (inOrder_fields node).imp fun hbefore path hpath other hother => ?_
      obtain ⟨path, -, rfl⟩ := List.mem_map.mp hpath
      obtain ⟨other, -, rfl⟩ := List.mem_map.mp hother
      exact .rel hbefore

/-! ### The walk -/

/-- Each entry of the walk is where its path leads. -/
theorem found_walk (node : Node) (depth : Nat) :
    List.Forall₂ (fun path entry => node.Reaches path entry.2 ∧ entry.1 = depth + path.length)
      node.paths (node.walk depth) := by
  induction node using inductionOnChildren generalizing depth with
  | step node ih =>
    rw [paths_eq, walk_eq, ← map_snd_fields, List.flatMap_map]
    refine .cons ⟨.root, rfl⟩ ?_
    refine List.rel_flatMap (R := fun entry other => entry = other ∧ entry ∈ node.fields)
      (List.forall₂_same.mpr fun entry hentry => ⟨rfl, hentry⟩) ?_
    rintro entry _ ⟨rfl, hentry⟩
    rw [List.forall₂_map_left_iff]
    refine (ih entry.2 (mem_children_of_mem_fields hentry) (depth + 1)).imp ?_
    rintro path found ⟨hreaches, hdepth⟩
    refine ⟨.down (mem_fields_iff.mp hentry) hreaches, ?_⟩
    rw [hdepth, List.length_cons]
    omega

/-- **The walk goes through the whole tree.** -/
theorem traverses_walk (tree : Node) (depth : Nat) :
    Traverses tree depth tree.paths (tree.walk depth) where
  found := found_walk tree depth
  once := (pairwise_paths tree).imp fun {path other} hlex heq => by
    have hirrefl (field : Field) : ¬ field.Before field := by
      simp [Field.Before, Prod.lex_iff]
    exact List.lex_irrefl hirrefl path (heq ▸ hlex)
  complete hreaches := mem_paths_iff.mpr ⟨_, hreaches⟩
  ordered := pairwise_paths tree

end JetSql.Node
