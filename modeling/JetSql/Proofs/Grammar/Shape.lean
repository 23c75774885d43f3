/-
The shape of the trees that are read, told by the trees alone.

`Formed` is what the reading keeps: it measures, for every operand, which links may follow it.
`Node.Shaped` is what there is to see afterwards. Each node stands in a place where its kind may
stand (`Placed`), links stand above the links that bind more tightly (`Ranked`), and names and
literals are ones that can be written (`Writable`). A renderer that writes no parentheses of its own
relies on the second.

* **`shaped_of_parse`:** every tree that is parsed has this shape.
-/

import JetSql.Proofs.Grammar.Form
import JetSql.Proofs.Tree.Everywhere
import Mathlib

namespace JetSql

open Grammar

namespace Node

/-! ### Places -/

/-- Expressions, and expressions in parentheses. -/
def isExpr : Node → Bool
  | logical .. | not _ | comparison .. | isNull .. | inList .. | between .. | arithmetic ..
  | negate _ | conditional .. | call .. | identifier _ | literal _ => true
  | grouped inner => isExpr inner
  | _ => false

/-- Tables, joins, and either of them in parentheses. -/
def isTables : Node → Bool
  | tableRef .. | join .. => true
  | grouped inner => isTables inner
  | _ => false

/-- Every child of a node is of a kind that may stand in its place, and the lists that must hold
something do. -/
def Placed : Node → Prop
  | query clauses =>
    clauses.items ≠ [] ∧
      (∀ item ∈ clauses.items, item.kind ∈ [Kind.star, .qualifiedStar, .selectItem]) ∧
      (∀ table ∈ clauses.tables, table.isTables) ∧
      (∀ condition ∈ clauses.condition.toList, condition.isExpr) ∧
      (∀ group ∈ clauses.groups, group.isExpr) ∧
      (∀ condition ∈ clauses.having.toList, condition.isExpr) ∧
      ∀ order ∈ clauses.orders, order.kind = .orderItem
  | selectItem expr _ | orderItem expr _ | not expr | negate expr | isNull expr _ => expr.isExpr
  | tableRef table _ => table.kind = .identifier
  | join left _ right on => left.isTables ∧ right.isTables ∧ right.kind ≠ .join ∧ on.isExpr
  | logical left _ right | arithmetic left _ right => left.isExpr ∧ right.isExpr
  | comparison left op right => left.isExpr ∧ op.kind = .operator ∧ right.isExpr
  | inList expr list _ => expr.isExpr ∧ list ≠ [] ∧ ∀ item ∈ list, item.isExpr
  | between expr low high _ => expr.isExpr ∧ low.isExpr ∧ high.isExpr
  | conditional condition thenValue elseValue =>
    ∀ arg ∈ [condition, thenValue, elseValue], arg = star ∨ arg.isExpr
  | call _ args => ∀ arg ∈ args, arg = star ∨ arg.isExpr
  | grouped inner => inner.isExpr ∨ inner.isTables
  | crosstab value select pivot => value.isExpr ∧ select.kind = .query ∧ pivot.isExpr
  | operator _ | identifier _ | literal _ | star | qualifiedStar _ => True

/-- A node that is no statement. -/
def IsPhrase (node : Node) : Prop :=
  node.kind ≠ .query ∧ node.kind ≠ .crosstab

/-- One `SELECT`, alone or in a crosstab, and no statement further down. -/
inductive IsStatement : Node → Prop where
  | query {clauses : Clauses Node} :
      (∀ node ∈ clauses.nodes, node.Everywhere IsPhrase) → IsStatement (.query clauses)
  | crosstab {value pivot : Node} {clauses : Clauses Node} :
      value.Everywhere IsPhrase → (∀ node ∈ clauses.nodes, node.Everywhere IsPhrase) →
        pivot.Everywhere IsPhrase → IsStatement (.crosstab value (.query clauses) pivot)

/-- Nodes of a kind stand right below a node only if the node is of one of some kinds. -/
def OnlyBelow (kind : Kind) (parents : List Kind) (node : Node) : Prop :=
  ∀ child ∈ node.children, child.kind = kind → node.kind ∈ parents

/-! ### Ranks -/

/-- How tightly a link binds its operands, from `OR` with 1 to `*` and `/` with 9; nothing for a node
that is no link. -/
def rank? : Node → Option Nat
  | logical _ op _ => some op.precedence
  | comparison .. | isNull .. | inList .. | between .. => some 4
  | arithmetic _ op _ => some op.precedence
  | _ => none

/-- What may stand on the left of a link: a link that binds as tightly, or one that ends in its own
right. -/
def LeftOf (rank : Nat) (left : Node) : Prop :=
  ∀ r, left.rank? = some r → left.kind ∈ [Kind.isNull, .inList] ∨ rank ≤ r

/-- What may stand on the right of a link: a link that binds more tightly. -/
def RightOf (rank : Nat) (right : Node) : Prop :=
  ∀ r, right.rank? = some r → rank < r

/-- The operands of a node are those that its rank allows. A `NOT` takes in the comparisons that
follow it, so it is on the left of `AND` and `OR` only. -/
def Ranked : Node → Prop
  | logical left op right => LeftOf op.precedence left ∧ RightOf op.precedence right
  | comparison left _ right => left.kind ≠ .not ∧ LeftOf 4 left ∧ RightOf 4 right
  | isNull left _ | inList left _ _ => left.kind ≠ .not ∧ LeftOf 4 left
  | between left low high _ =>
    left.kind ≠ .not ∧ LeftOf 4 left ∧ RightOf 4 low ∧ RightOf 4 high
  | arithmetic left op right =>
    left.kind ≠ .not ∧ LeftOf op.precedence left ∧ RightOf op.precedence right
  | not expr => ∀ r, expr.rank? = some r → 4 ≤ r
  | negate expr => expr.rank? = none
  | _ => True

/-! ### Names and literals -/

/-- The names, the literals and the row limit of a node can be written. What a table is called is
not the first word of a join. -/
def Writable : Node → Prop
  | query clauses => ∀ rows, clauses.top = some rows → rows < UInt64.size
  | selectItem _ asName => ∀ part, asName = some part → part.Formed
  | tableRef _ asName => ∀ part, asName = some part → part.Formed ∧ isJoinSide part = false
  | call callee _ => IsName callee
  | identifier parts | qualifiedStar parts => parts ≠ [] ∧ ∀ part ∈ parts, part.Formed
  | literal value => value.Formed
  | _ => True

/-- The shape of a parsed tree. -/
structure Shaped (tree : Node) : Prop where
  statement : tree.IsStatement
  placed : tree.Everywhere Placed
  stars : tree.Everywhere (OnlyBelow .star [.query, .call, .conditional])
  operators : tree.Everywhere (OnlyBelow .operator [.comparison])
  ranked : tree.Everywhere Ranked
  writable : tree.Everywhere Writable

/-! ### Places decide what stands below -/

variable {node child : Node}

/-- The kinds that are neither expressions nor tables, each with a kind that it stands below. -/
def ownPlaces : List (Kind × Kind) :=
  [(.star, .query), (.qualifiedStar, .query), (.selectItem, .query), (.orderItem, .query),
   (.star, .call), (.star, .conditional), (.operator, .comparison), (.identifier, .tableRef),
   (.query, .crosstab)]

theorem mem_ownPlaces_of (k parent : Kind) (hchild : child.kind = k) (hnode : node.kind = parent)
    (h : (k, parent) ∈ ownPlaces) : (child.kind, node.kind) ∈ ownPlaces := by
  rwa [hchild, hnode]

/-- Below a node there are expressions and tables; the other kinds have places of their own. -/
theorem Placed.cases_of_mem_children (h : node.Placed) (hchild : child ∈ node.children) :
    child.isExpr ∨ child.isTables ∨ (child.kind, node.kind) ∈ ownPlaces := by
  cases node with
  | query clauses =>
    obtain ⟨-, hitems, htables, hcondition, hgroups, hhaving, horders⟩ := h
    simp only [children, Clauses.nodes, List.mem_append] at hchild
    rcases hchild with ((((hchild | hchild) | hchild) | hchild) | hchild) | hchild
    · have hitem := hitems _ hchild
      cases child <;> simp [kind, ownPlaces] at hitem ⊢
    · exact .inr (.inl (htables _ hchild))
    · exact .inl (hcondition _ hchild)
    · exact .inl (hgroups _ hchild)
    · exact .inl (hhaving _ hchild)
    · exact .inr (.inr (mem_ownPlaces_of .orderItem .query (horders _ hchild) rfl (by decide)))
  | selectItem | orderItem | not | negate | isNull =>
    obtain rfl := List.mem_singleton.mp hchild
    exact .inl h
  | grouped =>
    obtain rfl := List.mem_singleton.mp hchild
    exact h.imp_right .inl
  | tableRef =>
    obtain rfl := List.mem_singleton.mp hchild
    exact .inr (.inr (mem_ownPlaces_of .identifier .tableRef h rfl (by decide)))
  | inList expr list _ =>
    rcases List.mem_cons.mp hchild with rfl | hitem
    · exact .inl h.1
    · exact .inl (h.2.2 _ hitem)
  | call =>
    rcases h _ hchild with rfl | hexpr
    · exact .inr (.inr (mem_ownPlaces_of .star .call rfl rfl (by decide)))
    · exact .inl hexpr
  | conditional =>
    rcases h _ hchild with rfl | hexpr
    · exact .inr (.inr (mem_ownPlaces_of .star .conditional rfl rfl (by decide)))
    · exact .inl hexpr
  | logical | arithmetic =>
    simp only [children, List.mem_cons, List.not_mem_nil, or_false] at hchild
    rcases hchild with rfl | rfl
    · exact .inl h.1
    · exact .inl h.2
  | join =>
    simp only [children, List.mem_cons, List.not_mem_nil, or_false] at hchild
    rcases hchild with rfl | rfl | rfl
    · exact .inr (.inl h.1)
    · exact .inr (.inl h.2.1)
    · exact .inl h.2.2.2
  | comparison =>
    simp only [children, List.mem_cons, List.not_mem_nil, or_false] at hchild
    rcases hchild with rfl | rfl | rfl
    · exact .inl h.1
    · exact .inr (.inr (mem_ownPlaces_of .operator .comparison h.2.1 rfl (by decide)))
    · exact .inl h.2.2
  | between =>
    simp only [children, List.mem_cons, List.not_mem_nil, or_false] at hchild
    rcases hchild with rfl | rfl | rfl
    · exact .inl h.1
    · exact .inl h.2.1
    · exact .inl h.2.2
  | crosstab =>
    simp only [children, List.mem_cons, List.not_mem_nil, or_false] at hchild
    rcases hchild with rfl | rfl | rfl
    · exact .inl h.1
    · exact .inr (.inr (mem_ownPlaces_of .query .crosstab h.2.1 rfl (by decide)))
    · exact .inl h.2.2
  | operator | identifier | literal | star | qualifiedStar => cases hchild

theorem kind_of_isExpr (h : node.isExpr) :
    node.kind ∉ [Kind.star, .operator, .query, .crosstab] := by
  cases node <;> simp [isExpr, kind] at h ⊢

theorem kind_of_isTables (h : node.isTables) :
    node.kind ∉ [Kind.star, .operator, .query, .crosstab] := by
  cases node <;> simp [isTables, kind] at h ⊢

theorem isPhrase_of_isExpr (h : node.isExpr) : node.IsPhrase := by
  have hkind := kind_of_isExpr h
  simp only [List.mem_cons, List.not_mem_nil, or_false, not_or] at hkind
  exact hkind.2.2

/-- A star, an operator or a statement stands in a place of its own. -/
theorem Placed.mem_ownPlaces (h : node.Placed) (hchild : child ∈ node.children)
    (hkind : child.kind ∈ [Kind.star, .operator, .query, .crosstab]) :
    (child.kind, node.kind) ∈ ownPlaces := by
  rcases h.cases_of_mem_children hchild with hexpr | htables | hplace
  · exact absurd hkind (kind_of_isExpr hexpr)
  · exact absurd hkind (kind_of_isTables htables)
  · exact hplace

theorem Placed.stars (h : node.Placed) : OnlyBelow .star [.query, .call, .conditional] node := by
  intro child hchild hstar
  have hplace := h.mem_ownPlaces hchild (by simp [hstar])
  simpa [hstar, ownPlaces] using hplace

theorem Placed.operators (h : node.Placed) : OnlyBelow .operator [.comparison] node := by
  intro child hchild hoperator
  have hplace := h.mem_ownPlaces hchild (by simp [hoperator])
  simpa [hoperator, ownPlaces] using hplace

/-- Only a crosstab has a statement below it. -/
theorem Placed.isPhrase_of_mem_children (h : node.Placed) (hnode : node.kind ≠ .crosstab)
    (hchild : child ∈ node.children) : child.IsPhrase := by
  constructor
  · intro hquery
    have hplace := h.mem_ownPlaces hchild (by simp [hquery])
    simp [hquery, hnode, ownPlaces] at hplace
  · intro hcrosstab
    have hplace := h.mem_ownPlaces hchild (by simp [hcrosstab])
    simp [hcrosstab, ownPlaces] at hplace

/-- In a tree of placed nodes there is no statement below a phrase. -/
theorem Everywhere.isPhrase (hplaced : node.Everywhere Placed) (hnode : node.IsPhrase) :
    node.Everywhere IsPhrase := by
  induction node using inductionOnChildren with
  | step node ih =>
    obtain ⟨hhere, hbelow⟩ := everywhere_iff.mp hplaced
    refine everywhere_iff.mpr ⟨hnode, fun child hchild => ?_⟩
    exact ih child hchild (hbelow child hchild)
      (hhere.isPhrase_of_mem_children hnode.2 hchild)

theorem Everywhere.isPhrase_of_mem_query {clauses : Clauses Node}
    (hplaced : (query clauses).Everywhere Placed) (hchild : child ∈ clauses.nodes) :
    child.Everywhere IsPhrase := by
  obtain ⟨hhere, hbelow⟩ := everywhere_iff.mp hplaced
  exact (hbelow child hchild).isPhrase (hhere.isPhrase_of_mem_children (by simp [kind]) hchild)

end Node

namespace Grammar

open Node

/-! ### Formed trees have the shape -/

variable {role : Role} {node left right : Node} {rank : Nat}

/-- The nodes that a role allows. -/
def Role.Admits : Role → Node → Prop
  | .expr, node => node.isExpr
  | .argument, node => node = star ∨ node.isExpr
  | .factor, node => node.isTables ∧ node.kind ≠ .join
  | .tables, node => node.isTables
  | .selectItem, node => node.kind ∈ [Kind.star, .qualifiedStar, .selectItem]
  | .orderItem, node => node.kind = .orderItem
  | .select, node => node.kind = .query
  | .statement, node => node.kind ∈ [Kind.query, .crosstab]

theorem Formed.admits (h : Formed role node) : role.Admits node := by
  induction h with
  | argument _ ih => exact .inr ih
  | factor _ ih => exact ih.1
  | grouped _ ih => exact ih
  | groupedTables _ ih => exact ⟨ih, by simp [kind]⟩
  | tableRef => exact ⟨rfl, by simp [kind]⟩
  | star => exact .inl rfl
  | query _ ih => exact List.mem_cons.mpr (.inl ih)
  | itemStar | qualifiedStar | selectItem | crosstab => simp [Role.Admits, kind]
  | _ => rfl

theorem Formed.placed (h : Formed role node) : node.Placed := by
  induction h with
  | argument _ ih | factor _ ih | query _ ih => exact ih
  | logical hleft _ hright | arithmetic hleft _ hright => exact ⟨hleft.admits, hright.admits⟩
  | compare hleft _ hright => exact ⟨hleft.admits, rfl, hright.admits⟩
  | isNull hexpr | not hexpr | negate hexpr | selectItem hexpr | orderItem hexpr =>
    exact hexpr.admits
  | inList hleft _ hne hlist =>
    exact ⟨hleft.admits, hne, fun item hitem => (hlist item hitem).admits⟩
  | between hleft _ hlow _ _ hhigh => exact ⟨hleft.admits, hlow.admits, hhigh.admits⟩
  | grouped hexpr => exact .inl hexpr.admits
  | groupedTables htables => exact .inr htables.admits
  | conditional hcondition hthen helse =>
    exact List.forall_mem_cons.mpr ⟨hcondition.admits, List.forall_mem_cons.mpr
      ⟨hthen.admits, List.forall_mem_singleton.mpr helse.admits⟩⟩
  | call _ hargs => exact fun arg harg => (hargs arg harg).admits
  | join hleft hright hon => exact ⟨hleft.admits, hright.admits.1, hright.admits.2, hon.admits⟩
  | select _ hne hitems htables hcondition hgroups hhaving horders =>
    exact ⟨hne, fun item h => (hitems item h).admits, fun table h => (htables table h).admits,
      fun expr h => (hcondition expr h).admits, fun expr h => (hgroups expr h).admits,
      fun expr h => (hhaving expr h).admits, fun order h => (horders order h).admits⟩
  | crosstab hvalue hselect hpivot => exact ⟨hvalue.admits, hselect.admits, hpivot.admits⟩
  | tableRef => rfl
  | literal | identifier | star | itemStar | qualifiedStar => trivial

theorem spine_le_of_rank? (h : node.rank? = some rank) : node.spine ≤ rank := by
  cases node <;> simp [rank?, spine] at h ⊢ <;> omega

/-- `IS NULL` and `IN` end in nothing that a link could be drawn into; the other links do. -/
theorem tail_le_of_rank? (h : node.rank? = some rank)
    (hkind : node.kind ∉ [Kind.isNull, .inList]) : node.tail ≤ rank + 1 := by
  cases node <;> simp [rank?, tail, kind] at h hkind ⊢ <;> omega

theorem rank?_lt_ten (h : node.rank? = some rank) : rank < 10 := by
  cases node with
  | logical _ op | arithmetic _ op => cases op <;> cases h <;> decide
  | comparison | isNull | inList | between => cases h; decide
  | _ => cases h

theorem rightOf_of_lt_spine (h : rank < right.spine) : RightOf rank right :=
  fun _ hright => Nat.lt_of_lt_of_le h (spine_le_of_rank? hright)

theorem leftOf_of_lt_tail (h : rank < left.tail) : LeftOf rank left := by
  intro r hleft
  by_cases hkind : left.kind ∈ [Kind.isNull, .inList]
  · exact .inl hkind
  · exact .inr (Nat.le_of_lt_succ (Nat.lt_of_lt_of_le h (tail_le_of_rank? hleft hkind)))

theorem kind_ne_not_of_lt_tail (hrank : 4 ≤ rank) (h : rank < left.tail) : left.kind ≠ .not := by
  cases left <;> simp [kind, tail] at h ⊢
  omega

theorem Formed.ranked (h : Formed role node) : node.Ranked := by
  induction h with
  | argument _ ih | factor _ ih | query _ ih => exact ih
  | logical _ hleft _ hright => exact ⟨leftOf_of_lt_tail hleft, rightOf_of_lt_spine hright⟩
  | compare _ hleft _ hright =>
    exact ⟨kind_ne_not_of_lt_tail (Nat.le_refl 4) hleft, leftOf_of_lt_tail hleft,
      rightOf_of_lt_spine hright⟩
  | @arithmetic _ _ op _ hleft _ hright =>
    have hrank : 4 ≤ op.precedence := by cases op <;> decide
    exact ⟨kind_ne_not_of_lt_tail hrank hleft, leftOf_of_lt_tail hleft, rightOf_of_lt_spine hright⟩
  | isNull _ hleft | inList _ hleft =>
    exact ⟨kind_ne_not_of_lt_tail (Nat.le_refl 4) hleft, leftOf_of_lt_tail hleft⟩
  | between _ hleft _ hlow _ _ hhigh =>
    exact ⟨kind_ne_not_of_lt_tail (Nat.le_refl 4) hleft, leftOf_of_lt_tail hleft,
      rightOf_of_lt_spine hlow, rightOf_of_lt_spine hhigh⟩
  | not _ hspine => exact fun _ hrank => Nat.le_trans hspine (spine_le_of_rank? hrank)
  | negate _ hspine =>
    refine Option.eq_none_iff_forall_ne_some.mpr fun r hrank => ?_
    exact Nat.not_le.mpr (rank?_lt_ten hrank) (Nat.le_trans hspine (spine_le_of_rank? hrank))
  | _ => trivial

theorem Formed.writable (h : Formed role node) : node.Writable := by
  induction h with
  | argument _ ih | factor _ ih | query _ ih => exact ih
  | call hname _ => exact hname
  | literal hvalue => exact hvalue
  | identifier hne hnames | qualifiedStar hne hnames => exact ⟨hne, hnames⟩
  | tableRef _ _ hname | selectItem _ hname => exact hname
  | select htop => exact htop
  | _ => trivial

/-- **Formed statements have the shape.** -/
theorem shaped_of_formed (h : Formed .statement node) : node.Shaped := by
  have hplaced : node.Everywhere Placed := h.everywhere Formed.placed fun _ => trivial
  refine ⟨?_, hplaced, fun entry hentry => (hplaced entry hentry).stars,
    fun entry hentry => (hplaced entry hentry).operators,
    h.everywhere Formed.ranked fun _ => trivial, h.everywhere Formed.writable fun _ => trivial⟩
  cases h with
  | query hselect =>
    cases hselect
    exact .query fun _ hnode => hplaced.isPhrase_of_mem_query hnode
  | crosstab hvalue hselect hpivot =>
    cases hselect
    obtain ⟨-, hbelow⟩ := everywhere_iff.mp hplaced
    exact .crosstab ((hbelow _ (by simp [children])).isPhrase (isPhrase_of_isExpr hvalue.admits))
      (fun _ hnode => (hbelow _ (by simp [children])).isPhrase_of_mem_query hnode)
      ((hbelow _ (by simp [children])).isPhrase (isPhrase_of_isExpr hpivot.admits))

end Grammar

open Node

/-- **Every tree that is parsed has the shape of a statement.** -/
theorem shaped_of_parse {source : String} {limit : Nat} {tree : Node}
    (h : parse source limit = .ok tree) : tree.Shaped :=
  shaped_of_formed (formed_of_read (read_of_parse h))

/-- `NOT a = 1 - 2 * b OR c`. -/
def disjoined : Node :=
  .selectItem (.logical (.not (.compare (name "a") .eq
    (.arithmetic (number "1") .sub (.arithmetic (number "2") .mul (name "b"))))) .or (name "c")) none

/-- A `NOT` on the left of `OR`, and links under links that bind less tightly. -/
theorem shaped_of_parse_disjoined :
    parse "SELECT NOT a = 1 - 2 * b OR c" 9 =
        .ok (.query ⟨false, none, [disjoined], [], none, [], none, []⟩) ∧
      Shaped (.query ⟨false, none, [disjoined], [], none, [], none, []⟩) := by
  have hparse : parse "SELECT NOT a = 1 - 2 * b OR c" 9 =
      .ok (.query ⟨false, none, [disjoined], [], none, [], none, []⟩) := by cbv
  exact ⟨hparse, shaped_of_parse hparse⟩

end JetSql
