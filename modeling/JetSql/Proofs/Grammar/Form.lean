/-
The shape of the trees that are read.

`Formed role node` says that a tree keeps the ranks of its operators: what stands on the right of a
link binds more tightly than the link, and what stands on its left leaves the link to it. Two
measures decide this. `Node.spine` is the rank of the loosest link that is met on the way down the
left operands. `Node.tail` bounds the links that may follow the node: a looser link than that is not
drawn into the operand that the node ends with, such as the operand of a `NOT`.

* **`formed_of_read`:** every tree that is read is formed.
-/

import JetSql.Proofs.Grammar.Derivation
import JetSql.Proofs.Grammar.Leaf
import JetSql.Proofs.Tree.Everywhere

namespace JetSql

namespace Node

/-- The rank of the loosest link on the way down the left operands, above every rank if there is
none. -/
def spine : Node → Nat
  | logical left op _ => min op.precedence (spine left)
  | comparison left _ _ | isNull left _ | inList left _ _ | between left _ _ _ => min 4 (spine left)
  | arithmetic left op _ => min op.precedence (spine left)
  | _ => 10

/-- The rank below which a link may follow the node. -/
def tail : Node → Nat
  | logical _ op right => min (op.precedence + 1) (tail right)
  | comparison _ _ right => min 5 (tail right)
  | arithmetic _ op right => min (op.precedence + 1) (tail right)
  | between _ _ high _ => min 5 (tail high)
  | not expr => min 4 (tail expr)
  | negate expr => tail expr
  | _ => 10

end Node

namespace Grammar

open Node

/-- The part that a node plays in a statement. A factor is one table, or tables in parentheses. -/
inductive Role where
  | expr | argument | factor | tables | selectItem | orderItem | select | statement
deriving DecidableEq

/-- The trees in which every operator has the operands that its rank allows, every list that must
hold something does, and all names and literals can be written. -/
inductive Formed : Role → Node → Prop where
  | logical {left right : Node} {op : LogicOp} :
      Formed .expr left → op.precedence < left.tail → Formed .expr right →
        op.precedence < right.spine → Formed .expr (.logical left op right)
  | compare {left right : Node} {op : CompareOp} :
      Formed .expr left → 4 < left.tail → Formed .expr right → 4 < right.spine →
        Formed .expr (.compare left op right)
  | arithmetic {left right : Node} {op : ArithOp} :
      Formed .expr left → op.precedence < left.tail → Formed .expr right →
        op.precedence < right.spine → Formed .expr (.arithmetic left op right)
  | isNull {left : Node} {negated : Bool} :
      Formed .expr left → 4 < left.tail → Formed .expr (.isNull left negated)
  | inList {left : Node} {list : List Node} {negated : Bool} :
      Formed .expr left → 4 < left.tail → list ≠ [] → (∀ item ∈ list, Formed .expr item) →
        Formed .expr (.inList left list negated)
  | between {left low high : Node} {negated : Bool} :
      Formed .expr left → 4 < left.tail → Formed .expr low → 4 < low.spine → 2 < low.tail →
        Formed .expr high → 4 < high.spine → Formed .expr (.between left low high negated)
  | not {expr : Node} : Formed .expr expr → 4 ≤ expr.spine → Formed .expr (.not expr)
  | negate {expr : Node} : Formed .expr expr → 10 ≤ expr.spine → Formed .expr (.negate expr)
  | grouped {expr : Node} : Formed .expr expr → Formed .expr (.grouped expr)
  | conditional {condition thenValue elseValue : Node} :
      Formed .argument condition → Formed .argument thenValue → Formed .argument elseValue →
        Formed .expr (.conditional condition thenValue elseValue)
  | call {callee : String} {args : List Node} :
      IsName callee → (∀ arg ∈ args, Formed .argument arg) → Formed .expr (.call callee args)
  | literal {value : Literal} : value.Formed → Formed .expr (.literal value)
  | identifier {names : List Part} :
      names ≠ [] → (∀ p ∈ names, p.Formed) → Formed .expr (.identifier names)
  | star : Formed .argument .star
  | argument {expr : Node} : Formed .expr expr → Formed .argument expr
  | tableRef {names : List Part} {asName : Option Part} :
      names ≠ [] → (∀ p ∈ names, p.Formed) →
        (∀ p, asName = some p → p.Formed ∧ isJoinSide p = false) →
        Formed .factor (.tableRef (.identifier names) asName)
  | groupedTables {inner : Node} : Formed .tables inner → Formed .factor (.grouped inner)
  | factor {table : Node} : Formed .factor table → Formed .tables table
  | join {left right on : Node} {kind : JoinKind} :
      Formed .tables left → Formed .factor right → Formed .expr on →
        Formed .tables (.join left kind right on)
  | itemStar : Formed .selectItem .star
  | qualifiedStar {names : List Part} :
      names ≠ [] → (∀ p ∈ names, p.Formed) → Formed .selectItem (.qualifiedStar names)
  | selectItem {expr : Node} {asName : Option Part} :
      Formed .expr expr → (∀ p, asName = some p → p.Formed) →
        Formed .selectItem (.selectItem expr asName)
  | orderItem {expr : Node} {order : Option SortOrder} :
      Formed .expr expr → Formed .orderItem (.orderItem expr order)
  | select {clauses : Clauses Node} :
      (∀ rows, clauses.top = some rows → rows < UInt64.size) → clauses.items ≠ [] →
        (∀ item ∈ clauses.items, Formed .selectItem item) →
        (∀ table ∈ clauses.tables, Formed .tables table) →
        (∀ condition ∈ clauses.condition.toList, Formed .expr condition) →
        (∀ group ∈ clauses.groups, Formed .expr group) →
        (∀ condition ∈ clauses.having.toList, Formed .expr condition) →
        (∀ order ∈ clauses.orders, Formed .orderItem order) → Formed .select (.query clauses)
  | query {node : Node} : Formed .select node → Formed .statement node
  | crosstab {value select pivot : Node} :
      Formed .expr value → Formed .select select → Formed .expr pivot →
        Formed .statement (.crosstab value select pivot)

/-- What stands below a formed node is formed, or the operator of a comparison. -/
theorem formed_of_mem_children {role : Role} {node child : Node} (h : Formed role node)
    (hchild : child ∈ node.children) : (∃ role, Formed role child) ∨ ∃ op, child = .operator op := by
  induction h with
  | argument _ ih | factor _ ih | query _ ih => exact ih hchild
  | compare hleft _ hright =>
    simp only [children, Node.compare, List.mem_cons, List.not_mem_nil, or_false] at hchild
    rcases hchild with rfl | rfl | rfl
    · exact .inl ⟨_, hleft⟩
    · exact .inr ⟨_, rfl⟩
    · exact .inl ⟨_, hright⟩
  | inList hleft _ _ hlist =>
    rcases List.mem_cons.mp hchild with rfl | hitem
    · exact .inl ⟨_, hleft⟩
    · exact .inl ⟨_, hlist _ hitem⟩
  | call _ hargs => exact .inl ⟨_, hargs _ hchild⟩
  | select _ _ hitems htables hcondition hgroups hhaving horders =>
    simp only [children, Clauses.nodes, List.mem_append] at hchild
    rcases hchild with ((((h | h) | h) | h) | h) | h
    · exact .inl ⟨_, hitems _ h⟩
    · exact .inl ⟨_, htables _ h⟩
    · exact .inl ⟨_, hcondition _ h⟩
    · exact .inl ⟨_, hgroups _ h⟩
    · exact .inl ⟨_, hhaving _ h⟩
    · exact .inl ⟨_, horders _ h⟩
  | tableRef hne hnames _ =>
    obtain rfl := List.mem_singleton.mp hchild
    exact .inl ⟨_, .identifier hne hnames⟩
  | literal | identifier | star | itemStar | qualifiedStar => cases hchild
  | isNull h _ | not h _ | negate h _ | grouped h | groupedTables h | selectItem h _ | orderItem h =>
    obtain rfl := List.mem_singleton.mp hchild
    exact .inl ⟨_, h⟩
  | logical hleft _ hright | arithmetic hleft _ hright =>
    simp only [children, List.mem_cons, List.not_mem_nil, or_false] at hchild
    rcases hchild with rfl | rfl
    · exact .inl ⟨_, hleft⟩
    · exact .inl ⟨_, hright⟩
  | between hfirst _ hsecond _ _ hthird | conditional hfirst hsecond hthird
  | join hfirst hsecond hthird | crosstab hfirst hsecond hthird =>
    simp only [children, List.mem_cons, List.not_mem_nil, or_false] at hchild
    rcases hchild with rfl | rfl | rfl
    · exact .inl ⟨_, hfirst⟩
    · exact .inl ⟨_, hsecond⟩
    · exact .inl ⟨_, hthird⟩

/-- What holds of formed nodes and of operators holds everywhere in a formed tree. -/
theorem Formed.everywhere {p : Node → Prop} {role : Role} {node : Node}
    (hp : ∀ {role node}, Formed role node → p node) (hoperator : ∀ op, p (.operator op))
    (h : Formed role node) : node.Everywhere p := by
  induction node using inductionOnChildren generalizing role with
  | step node ih =>
    refine everywhere_iff.mpr ⟨hp h, fun child hchild => ?_⟩
    obtain ⟨_, hformed⟩ | ⟨op, rfl⟩ := formed_of_mem_children h hchild
    · exact ih child hchild hformed
    · exact everywhere_iff.mpr ⟨hoperator op, fun _ hnone => by cases hnone⟩

/-! ### What may follow -/

theorem Link.precedence_lt (link : Link) : link.precedence < 10 := by
  cases link with
  | logical op | arithmetic op => cases op <;> decide
  | _ => simp [Link.precedence]

/-- A link that the text goes on with, if there is one, is looser than a rank. -/
def Stops (rank : Nat) (s : List Char) : Prop :=
  ∀ link after, Link.read? s = some (link, after) → link.precedence < rank

theorem stops_min {m n : Nat} {s : List Char} : Stops (min m n) s ↔ Stops m s ∧ Stops n s := by
  constructor
  · intro h
    exact ⟨fun link after hread => (Nat.lt_min.mp (h link after hread)).1,
      fun link after hread => (Nat.lt_min.mp (h link after hread)).2⟩
  · rintro ⟨hm, hn⟩ link after hread
    exact Nat.lt_min.mpr ⟨hm link after hread, hn link after hread⟩

theorem stops_ten (s : List Char) : Stops 10 s :=
  fun link _ _ => link.precedence_lt

/-- Where `AND` comes next, it is the link that is read. -/
theorem read?_of_keyword_and {s rest : List Char} (h : keyword "AND" s = .ok () rest) :
    Link.read? s = some (.logical .and, rest) := by
  have hhead := head?_of_keyword h (by decide)
  have hor : Reader.Misses (keyword "OR") s :=
    keyword_misses_of_head? (c := 'O') (by decide) (by simp) (by rw [hhead]; decide)
  rw [Link.read?, Reader.found?_eq_some, Link.read, Link.readers,
    Reader.firstOf_cons_of_misses (by simp [hor])]
  exact Reader.firstOf_cons_of_ok (Reader.seqRight_eq_ok.mpr ⟨(), rest, h, rfl⟩)

/-! ### What is read is formed -/

/-- What a derivation says about the node it makes and the text that it leaves. A chain and a link
take for granted that what stands to their left leaves them the link. -/
def Phrase.Yields : Phrase → List Char → Node → List Char → Prop
  | .operand least, _, node, rest =>
    least ≤ 10 → Formed .expr node ∧ least ≤ node.spine ∧ Stops node.tail rest ∧ Stops least rest
  | .leading, _, node, rest => Formed .expr node ∧ node.spine = 10 ∧ Stops node.tail rest
  | .chain least left, s, node, rest =>
    Formed .expr left → least ≤ left.spine → Stops left.tail s →
      Formed .expr node ∧ least ≤ node.spine ∧ Stops node.tail rest ∧ Stops least rest
  | .complete link left, _, node, rest =>
    Formed .expr left → link.precedence < left.tail →
      Formed .expr node ∧ node.spine = min link.precedence left.spine ∧ Stops node.tail rest
  | .argument, _, node, _ => Formed .argument node
  | .factor, _, node, _ => Formed .factor node
  | .joins left, _, node, _ => Formed .tables left → Formed .tables node
  | .tables, _, node, _ => Formed .tables node
  | .selectItem, _, node, _ => Formed .selectItem node
  | .orderItem, _, node, _ => Formed .orderItem node
  | .select, _, node, _ => Formed .select node
  | .body, _, node, _ | .statement, _, node, _ => Formed .statement node

/-- **Every derivation makes a formed node.** -/
theorem yields_of_derives {phrase : Phrase} {b : Nat} {s rest : List Char} {node : Node}
    (h : Derives phrase b s node rest) : phrase.Yields s node rest := by
  induction h with
  | operand _ _ ihleading ihchain =>
    obtain ⟨hformed, hspine, hstops⟩ := ihleading
    exact fun hleast => ihchain hformed (hspine ▸ hleast) hstops
  | not _ _ ih =>
    obtain ⟨hformed, hspine, hstops, hleast⟩ := ih (by decide)
    exact ⟨.not hformed hspine, rfl, stops_min.mpr ⟨hleast, hstops⟩⟩
  | negate _ _ ih =>
    obtain ⟨hformed, hspine, hstops, -⟩ := ih (by decide)
    exact ⟨.negate hformed hspine, rfl, hstops⟩
  | grouped _ _ _ ih => exact ⟨.grouped (ih (by decide)).1, rfl, stops_ten _⟩
  | conditional _ _ hargs _ _ ih =>
    have hargs := hargs.forall_mem ih
    exact ⟨.conditional (hargs _ (by simp)) (hargs _ (by simp)) (hargs _ (by simp)), rfl,
      stops_ten _⟩
  | callEmpty hname _ _ =>
    exact ⟨.call (name_eq_ok.mp hname).2.1 (by simp), rfl, stops_ten _⟩
  | call hname _ hargs _ _ ih =>
    exact ⟨.call (name_eq_ok.mp hname).2.1 (hargs.forall_mem ih), rfl, stops_ten _⟩
  | literal h =>
    obtain ⟨value, rfl, hvalue⟩ := formed_of_literal h
    exact ⟨.literal hvalue, rfl, stops_ten _⟩
  | identifier h =>
    obtain ⟨names, rfl, hne, hnames⟩ := formed_of_identifier h
    exact ⟨.identifier hne hnames, rfl, stops_ten _⟩
  | star _ => exact .star
  | argument _ ih => exact .argument (ih (by decide)).1
  | chainStop hstop => exact fun hformed hspine hstops => ⟨hformed, hspine, hstops, hstop⟩
  | chainLink hread hleast _ _ ihcomplete ihchain =>
    intro hformed hspine hstops
    obtain ⟨hjoined, hjoinedspine, hjoinedstops⟩ := ihcomplete hformed (hstops _ _ hread)
    exact ihchain hjoined (hjoinedspine ▸ Nat.le_min.mpr ⟨hleast, hspine⟩) hjoinedstops
  | @logical _ _ _ op _ _ _ ih =>
    obtain ⟨hright, hspine, hstops, hleast⟩ := ih (Link.logical op).precedence_lt
    exact fun hleft htail =>
      ⟨.logical hleft htail hright hspine, rfl, stops_min.mpr ⟨hleast, hstops⟩⟩
  | compare _ ih =>
    obtain ⟨hright, hspine, hstops, hleast⟩ := ih (by decide)
    exact fun hleft htail =>
      ⟨.compare hleft htail hright hspine, rfl, stops_min.mpr ⟨hleast, hstops⟩⟩
  | @arithmetic _ _ _ op _ _ _ ih =>
    obtain ⟨hright, hspine, hstops, hleast⟩ := ih (Link.arithmetic op).precedence_lt
    exact fun hleft htail =>
      ⟨.arithmetic hleft htail hright hspine, rfl, stops_min.mpr ⟨hleast, hstops⟩⟩
  | isNull => exact fun hleft htail => ⟨.isNull hleft htail, rfl, stops_ten _⟩
  | inList _ hlist _ _ ih =>
    exact fun hleft htail => ⟨.inList hleft htail hlist.ne_nil
      (hlist.forall_mem fun s node rest h => (ih s node rest h (by decide)).1), rfl, stops_ten _⟩
  | between _ hand _ ihlow ihhigh =>
    obtain ⟨hlow, hlowspine, hlowstops, -⟩ := ihlow (by decide)
    obtain ⟨hhigh, hhighspine, hhighstops, hleast⟩ := ihhigh (by decide)
    have hlowtail := hlowstops _ _ (read?_of_keyword_and hand)
    exact fun hleft htail =>
      ⟨.between hleft htail hlow hlowspine hlowtail hhigh hhighspine, rfl,
        stops_min.mpr ⟨hleast, hhighstops⟩⟩
  | groupedTables _ _ _ ih => exact .groupedTables ih
  | tableRef htable halias =>
    obtain ⟨names, rfl, hne, hnames⟩ := formed_of_identifier htable
    refine .tableRef hne hnames ?_
    rintro p rfl
    simp only [Reader.optional_eq_some, Reader.seqRight_eq_ok, tableAlias,
      Reader.satisfying_eq_ok, part_eq_ok, Bool.not_eq_true'] at halias
    obtain ⟨-, -, -, ⟨-, hformed, -⟩, hside⟩ := halias
    exact ⟨hformed, hside⟩
  | joinsStop _ => exact id
  | join _ _ _ _ _ ihright ihon ihjoins =>
    exact fun hleft => ihjoins (.join hleft ihright (ihon (by decide)).1)
  | tables _ _ ihfactor ihjoins => exact ihjoins (.factor ihfactor)
  | itemStar _ => exact .itemStar
  | qualifiedStar hparts _ =>
    obtain ⟨hne, hnames⟩ := formed_of_parts hparts
    exact .qualifiedStar hne hnames
  | selectItem _ halias ih =>
    refine .selectItem (ih (by decide)).1 ?_
    rintro p rfl
    simp only [Reader.optional_eq_some, Reader.seqRight_eq_ok, part_eq_ok] at halias
    obtain ⟨-, -, -, -, hformed, -⟩ := halias
    exact hformed
  | orderItem _ _ ih => exact .orderItem (ih (by decide)).1
  | select _ _ _ htop hitems htables hcondition hgroups hhaving horders _ _ _ _ ihitems ihtables
      ihexprs ihorders =>
    have ihexprs := fun s node rest h => (ihexprs s node rest h (by decide)).1
    refine .select ?_ hitems.ne_nil (hitems.forall_mem ihitems) (htables.forall_mem ihtables)
      (hcondition.forall_mem ihexprs) (hgroups.forall_mem ihexprs) (hhaving.forall_mem ihexprs)
      (horders.forall_mem ihorders)
    intro rows hrows
    simp only [hrows, Reader.optional_eq_some, Reader.seqRight_eq_ok, rowCount,
      Reader.bind_eq_ok, Reader.satisfying_eq_ok, Reader.pure_eq_ok, decide_eq_true_eq] at htop
    obtain ⟨-, -, -, -, -, -, digits, -, ⟨-, hbound⟩, rfl, -⟩ := htop
    exact hbound
  | query _ ih => exact .query ih
  | crosstab _ _ _ _ _ ihvalue ihselect ihpivot =>
    exact .crosstab (ihvalue (by decide)).1 ihselect (ihpivot (by decide)).1
  | statement _ _ _ ih => exact ih

/-- **Every tree that is read is formed.** -/
theorem formed_of_read {limit : Nat} {s : List Char} {node : Node} (h : read limit s = .ok node) :
    Formed .statement node :=
  yields_of_derives (derives_of_read h)

end Grammar

end JetSql
