/-
The readings that the grammar accepts, as a relation.

`Derives phrase budget s node rest` says that `s` begins with a phrase of the given sort that makes
`node`, that `rest` is left, and that no more than `budget` levels were spent. There is one
constructor for each way to read a phrase. What was tried and given up leaves no trace in it, so a
law of every tree that can be read is an induction over derivations, with a case for each construct.

* **`derives_of_statement`:** every statement that is read has a derivation.
-/

import JetSql.Proofs.Grammar.Success

namespace JetSql.Grammar

open Reader

/-- A sort of phrase. A chain, a link and joins go on from what stands to their left. -/
inductive Phrase where
  | operand (least : Nat)
  | leading
  | chain (least : Nat) (left : Node)
  | complete (link : Link) (left : Node)
  | argument
  | factor
  | joins (left : Node)
  | tables
  | selectItem
  | orderItem
  | select
  | body
  | statement

/-- A clause that may be missing. -/
inductive Clause (opening : Reader Unit) (item : List Char → Node → List Char → Prop) :
    List Char → Option Node → List Char → Prop where
  | absent {s : List Char} : Clause opening item s none s
  | present {s start rest : List Char} {node : Node} :
      opening s = .ok () start → item start node rest → Clause opening item s (some node) rest

/-- A clause that lists nodes and may be missing. -/
inductive ListClause (opening : Reader Unit) (item : List Char → Node → List Char → Prop) :
    List Char → List Node → List Char → Prop where
  | absent {s : List Char} : ListClause opening item s [] s
  | present {s start rest : List Char} {nodes : List Node} :
      opening s = .ok () start → Listed (symbol ",") item start nodes rest →
        ListClause opening item s nodes rest

section

variable {opening : Reader Unit} {item : List Char → Node → List Char → Prop} {s rest : List Char}

theorem Clause.forall_mem {p : Node → Prop} {clause : Option Node}
    (h : Clause opening item s clause rest) (hitem : ∀ s node rest, item s node rest → p node) :
    ∀ node ∈ clause.toList, p node := by
  cases h with
  | absent => simp
  | present _ h => simpa using hitem _ _ _ h

theorem ListClause.forall_mem {p : Node → Prop} {nodes : List Node}
    (h : ListClause opening item s nodes rest) (hitem : ∀ s node rest, item s node rest → p node) :
    ∀ node ∈ nodes, p node := by
  cases h with
  | absent => simp
  | present _ h => exact h.forall_mem hitem

end

/-- The accepted readings. Items of a list are given as a relation of which every instance is
derived, so that an induction over derivations reaches them. -/
inductive Derives : Phrase → Nat → List Char → Node → List Char → Prop where
  | operand {b least : Nat} {s middle rest : List Char} {left node : Node} :
      Derives .leading b s left middle → Derives (.chain least left) b middle node rest →
        Derives (.operand least) b s node rest
  | not {b : Nat} {s start rest : List Char} {expr : Node} :
      keyword "NOT" (skipSpacing s) = .ok () start → Derives (.operand 4) b start expr rest →
        Derives .leading (b + 1) s (.not expr) rest
  | negate {b : Nat} {s start rest : List Char} {expr : Node} :
      skipSpacing s = '-' :: start → Derives (.operand 10) b start expr rest →
        Derives .leading (b + 1) s (.negate expr) rest
  | grouped {b : Nat} {s start stop rest : List Char} {expr : Node} :
      skipSpacing s = '(' :: start → Derives (.operand loosest) b start expr stop →
        symbol ")" stop = .ok () rest → Derives .leading (b + 1) s (.grouped expr) rest
  | conditional {b : Nat} {s opening start stop rest : List Char}
      {condition thenValue elseValue : Node} {item : List Char → Node → List Char → Prop} :
      keyword "IIF" (skipSpacing s) = .ok () opening → symbol "(" opening = .ok () start →
        Listed (symbol ",") item start [condition, thenValue, elseValue] stop →
        (∀ s node rest, item s node rest → Derives .argument b s node rest) →
        symbol ")" stop = .ok () rest →
        Derives .leading (b + 1) s (.conditional condition thenValue elseValue) rest
  | callEmpty {b : Nat} {s opening start rest : List Char} {callee : String} :
      name (skipSpacing s) = .ok callee opening → symbol "(" opening = .ok () start →
        symbol ")" start = .ok () rest → Derives .leading (b + 1) s (.call callee []) rest
  | call {b : Nat} {s opening start stop rest : List Char} {callee : String} {args : List Node}
      {item : List Char → Node → List Char → Prop} :
      name (skipSpacing s) = .ok callee opening → symbol "(" opening = .ok () start →
        Listed (symbol ",") item start args stop →
        (∀ s node rest, item s node rest → Derives .argument b s node rest) →
        symbol ")" stop = .ok () rest → Derives .leading (b + 1) s (.call callee args) rest
  | literal {b : Nat} {s rest : List Char} {node : Node} :
      literal (skipSpacing s) = .ok node rest → Derives .leading b s node rest
  | identifier {b : Nat} {s rest : List Char} {node : Node} :
      identifier (skipSpacing s) = .ok node rest → Derives .leading b s node rest
  | star {b : Nat} {s rest : List Char} :
      symbol "*" s = .ok () rest → Derives .argument b s .star rest
  | argument {b : Nat} {s rest : List Char} {expr : Node} :
      Derives (.operand loosest) b s expr rest → Derives .argument b s expr rest
  | chainStop {b least : Nat} {s : List Char} {left : Node} :
      (∀ link after, Link.read? s = some (link, after) → link.precedence < least) →
        Derives (.chain least left) b s left s
  | chainLink {b least : Nat} {s start stop rest : List Char} {link : Link}
      {left joined node : Node} :
      Link.read? s = some (link, start) → least ≤ link.precedence →
        Derives (.complete link left) b start joined stop →
        Derives (.chain least joined) b stop node rest →
        Derives (.chain least left) (b + 1) s node rest
  | logical {b : Nat} {s rest : List Char} {op : LogicOp} {left right : Node} :
      Derives (.operand (op.precedence + 1)) b s right rest →
        Derives (.complete (.logical op) left) b s (.logical left op right) rest
  | compare {b : Nat} {s rest : List Char} {op : CompareOp} {left right : Node} :
      Derives (.operand 5) b s right rest →
        Derives (.complete (.compare op) left) b s (.compare left op right) rest
  | arithmetic {b : Nat} {s rest : List Char} {op : ArithOp} {left right : Node} :
      Derives (.operand (op.precedence + 1)) b s right rest →
        Derives (.complete (.arithmetic op) left) b s (.arithmetic left op right) rest
  | isNull {b : Nat} {s : List Char} {left : Node} {negated : Bool} :
      Derives (.complete (.isNull negated) left) b s (.isNull left negated) s
  | inList {b : Nat} {s start stop rest : List Char} {left : Node} {list : List Node}
      {negated : Bool} {item : List Char → Node → List Char → Prop} :
      symbol "(" s = .ok () start → Listed (symbol ",") item start list stop →
        (∀ s node rest, item s node rest → Derives (.operand loosest) b s node rest) →
        symbol ")" stop = .ok () rest →
        Derives (.complete (.inList negated) left) b s (.inList left list negated) rest
  | between {b : Nat} {s middle start rest : List Char} {left low high : Node} {negated : Bool} :
      Derives (.operand 5) b s low middle → keyword "AND" middle = .ok () start →
        Derives (.operand 5) b start high rest →
        Derives (.complete (.between negated) left) b s (.between left low high negated) rest
  | groupedTables {b : Nat} {s start stop rest : List Char} {inner : Node} :
      symbol "(" (skipSpacing s) = .ok () start → Derives .tables b start inner stop →
        symbol ")" stop = .ok () rest → Derives .factor (b + 1) s (.grouped inner) rest
  | tableRef {b : Nat} {s middle rest : List Char} {table : Node} {asName : Option Part} :
      Grammar.identifier (skipSpacing s) = .ok table middle →
        optional (optional (keyword "AS") *> tableAlias) middle = .ok asName rest →
        Derives .factor b s (.tableRef table asName) rest
  | joinsStop {b : Nat} {s : List Char} {left : Node} :
      readJoin? s = none → Derives (.joins left) b s left s
  | join {b : Nat} {s start middle condition stop rest : List Char} {kind : JoinKind}
      {left right on node : Node} :
      readJoin? s = some (kind, start) → Derives .factor b start right middle →
        keyword "ON" middle = .ok () condition →
        Derives (.operand loosest) b condition on stop →
        Derives (.joins (.join left kind right on)) b stop node rest →
        Derives (.joins left) (b + 1) s node rest
  | tables {b : Nat} {s middle rest : List Char} {left node : Node} :
      Derives .factor b s left middle → Derives (.joins left) b middle node rest →
        Derives .tables b s node rest
  | itemStar {b : Nat} {s rest : List Char} :
      symbol "*" s = .ok () rest → Derives .selectItem b s .star (skipSpacing rest)
  | qualifiedStar {b : Nat} {s middle rest : List Char} {names : List Part} :
      parts s = .ok names middle → exactly ".*" middle = .ok () rest →
        Derives .selectItem b s (.qualifiedStar names) rest
  | selectItem {b : Nat} {s middle rest : List Char} {expr : Node} {asName : Option Part} :
      Derives (.operand loosest) b s expr middle →
        optional (keyword "AS" *> part) middle = .ok asName rest →
        Derives .selectItem b s (.selectItem expr asName) rest
  | orderItem {b : Nat} {s middle rest : List Char} {expr : Node} {order : Option SortOrder} :
      Derives (.operand loosest) b s expr middle →
        optional ((keyword "ASC" *> pure SortOrder.asc) <|> (keyword "DESC" *> pure .desc)) middle =
          .ok order rest →
        Derives .orderItem b s (.orderItem expr order) rest
  | select {b : Nat} {s s₁ s₂ s₃ s₄ s₅ s₆ s₇ s₈ rest : List Char} {distinct : Option Unit}
      {clauses : Clauses Node} {items tables exprs orders : List Char → Node → List Char → Prop} :
      keyword "SELECT" s = .ok () s₁ →
        optional (keyword "DISTINCT") s₁ = .ok distinct s₂ → clauses.distinct = distinct.isSome →
        optional (keyword "TOP" *> rowCount) s₂ = .ok clauses.top s₃ →
        Listed (symbol ",") items s₃ clauses.items s₄ →
        ListClause (keyword "FROM") tables s₄ clauses.tables s₅ →
        Clause (keyword "WHERE") exprs s₅ clauses.condition s₆ →
        ListClause (keyword "GROUP" *> keyword "BY") exprs s₆ clauses.groups s₇ →
        Clause (keyword "HAVING") exprs s₇ clauses.having s₈ →
        ListClause (keyword "ORDER" *> keyword "BY") orders s₈ clauses.orders rest →
        (∀ s node rest, items s node rest → Derives .selectItem b s node rest) →
        (∀ s node rest, tables s node rest → Derives .tables b s node rest) →
        (∀ s node rest, exprs s node rest → Derives (.operand loosest) b s node rest) →
        (∀ s node rest, orders s node rest → Derives .orderItem b s node rest) →
        Derives .select b s (.query clauses) rest
  | query {b : Nat} {s rest : List Char} {node : Node} :
      Derives .select b s node rest → Derives .body b s node rest
  | crosstab {b : Nat} {s start middle stop after rest : List Char} {value select pivot : Node} :
      keyword "TRANSFORM" s = .ok () start → Derives (.operand loosest) b start value middle →
        Derives .select b middle select stop → keyword "PIVOT" stop = .ok () after →
        Derives (.operand loosest) b after pivot rest →
        Derives .body (b + 1) s (.crosstab value select pivot) rest
  | statement {b : Nat} {s middle stop : List Char} {node : Node} {mark : Option Unit} :
      Derives .body b s node middle → optional (symbol ";") middle = .ok mark stop →
        skipSpacing stop = [] → Derives .statement b s node []

/-! ### Every reading has a derivation -/

section Sound

variable {limit budget : Nat} {s rest : List Char} {node : Node}

/-- What is read one level down is read under a budget one smaller. -/
theorem exists_of_descend {α : Type} {next : Below → Reader α} {value : α}
    (h : descend limit (belowAt limit budget) next s = .ok value rest) :
    ∃ b, budget = b + 1 ∧ next ⟨operand limit b, chain limit b⟩ s = .ok value rest := by
  cases budget with
  | zero => exact absurd h (not_halt_eq_ok (s := s))
  | succ b => exact ⟨b, rfl, h⟩

theorem exists_of_descend_tables {α : Type} {next : TablesBelow → Reader α} {value : α}
    (h : descend limit (tablesBelowAt limit budget) next s = .ok value rest) :
    ∃ b, budget = b + 1 ∧
      next ⟨tables limit b, factor limit b, joins limit b, expression limit b⟩ s =
        .ok value rest := by
  cases budget with
  | zero => exact absurd h (not_halt_eq_ok (s := s))
  | succ b => exact ⟨b, rfl, h⟩

/-- What holds of the operands and chains that are read under a budget. -/
def OperandsDerive (limit b : Nat) : Prop :=
  (∀ least s node rest, operand limit b least s = .ok node rest →
    Derives (.operand least) b s node rest) ∧
  ∀ least left s node rest, chain limit b least left s = .ok node rest →
    Derives (.chain least left) b s node rest

theorem derives_of_argument {b : Nat} {below : Nat → Node → Reader Node}
    (hoperands : OperandsDerive limit b)
    (h : argument ⟨operand limit b, below⟩ s = .ok node rest) : Derives .argument b s node rest := by
  simp only [argument, orElse_eq_ok, seqRight_eq_ok, pure_eq_ok] at h
  rcases h with ⟨⟨⟩, middle, hstar, rfl, rfl⟩ | ⟨-, h⟩
  · exact .star hstar
  · exact .argument (hoperands.1 _ _ _ _ h)

theorem derives_of_arguments {args : List Node} (ih : ∀ b < budget, OperandsDerive limit b)
    (h : arguments limit (belowAt limit budget) s = .ok args rest) :
    ∃ b start stop, budget = b + 1 ∧ symbol "(" s = .ok () start ∧
      symbol ")" stop = .ok () rest ∧
      ((args = [] ∧ start = stop) ∨
        Listed (symbol ",") (Derives .argument b) start args stop) := by
  rw [arguments, bind_eq_ok] at h
  obtain ⟨⟨⟩, start, hopen, h⟩ := h
  obtain ⟨b, rfl, hbelow⟩ := exists_of_descend h
  simp only [bind_eq_ok, expecting_eq_ok, pure_eq_ok] at hbelow
  obtain ⟨_, stop, hargs, ⟨⟩, _, hclose, rfl, rfl⟩ := hbelow
  refine ⟨b, start, stop, rfl, hopen, hclose, ?_⟩
  rcases listed_of_separated0 hargs with hnone | hsome
  · exact .inl hnone
  · exact .inr (hsome.imp fun _ _ _ => derives_of_argument (ih b (Nat.lt_succ_self b)))

theorem derives_of_primary (ih : ∀ b < budget, OperandsDerive limit b)
    (h : primary limit (belowAt limit budget) (skipSpacing s) = .ok node rest) :
    Derives .leading budget s node rest := by
  simp only [primary, orElse_eq_ok] at h
  rcases h with h | ⟨-, h | ⟨-, h | ⟨-, h | ⟨-, h⟩⟩⟩⟩
  · rw [parenthesized, bind_eq_ok] at h
    obtain ⟨⟨⟩, start, hopen, h⟩ := h
    obtain ⟨b, rfl, hbelow⟩ := exists_of_descend h
    simp only [bind_eq_ok, expecting_eq_ok, pure_eq_ok] at hbelow
    obtain ⟨inner, stop, hinner, ⟨⟩, _, hclose, rfl, rfl⟩ := hbelow
    exact .grouped (char_eq_ok.mp hopen) ((ih b (Nat.lt_succ_self b)).1 _ _ _ _ hinner) hclose
  · simp only [Grammar.conditional, bind_eq_ok] at h
    obtain ⟨⟨⟩, opening, hword, args, middle, hargs, h⟩ := h
    obtain ⟨b, start, stop, rfl, hopen, hclose, hargs⟩ := derives_of_arguments ih hargs
    cases hnode : Node.conditionalOf args with
    | error error => simp [hnode, halt] at h
    | ok found =>
      simp only [hnode, pure_eq_ok] at h
      obtain ⟨rfl, rfl⟩ := h
      obtain ⟨condition, thenValue, elseValue, rfl, rfl⟩ := Node.conditionalOf_eq_ok_iff.mp hnode
      rcases hargs with ⟨hnil, -⟩ | hargs
      · cases hnil
      · exact .conditional hword hopen hargs (fun _ _ _ => id) hclose
  · simp only [Grammar.call, bind_eq_ok, pure_eq_ok] at h
    obtain ⟨callee, opening, hname, args, middle, hargs, rfl, rfl⟩ := h
    obtain ⟨b, start, stop, rfl, hopen, hclose, ⟨rfl, rfl⟩ | hargs⟩ := derives_of_arguments ih hargs
    · exact .callEmpty hname hopen hclose
    · exact .call hname hopen hargs (fun _ _ _ => id) hclose
  · exact .literal h
  · exact .identifier h

theorem derives_of_leading (ih : ∀ b < budget, OperandsDerive limit b)
    (h : leading limit (belowAt limit budget) s = .ok node rest) :
    Derives .leading budget s node rest := by
  simp only [leading, bind_eq_ok, spacing_eq_ok] at h
  obtain ⟨⟨⟩, _, rfl, not?, middle, hnot, h⟩ := h
  cases not? with
  | some =>
    simp only [Option.isSome_some, if_true] at h
    obtain ⟨b, rfl, hbelow⟩ := exists_of_descend h
    simp only [bind_eq_ok, pure_eq_ok] at hbelow
    obtain ⟨expr, _, hexpr, rfl, rfl⟩ := hbelow
    exact .not (optional_eq_some.mp hnot) ((ih b (Nat.lt_succ_self b)).1 _ _ _ _ hexpr)
  | none =>
    obtain ⟨-, rfl⟩ := optional_eq_none.mp hnot
    simp only [Option.isSome_none, Bool.false_eq_true, if_false, bind_eq_ok] at h
    obtain ⟨minus?, middle, hminus, h⟩ := h
    cases minus? with
    | some =>
      simp only [Option.isSome_some, if_true] at h
      obtain ⟨b, rfl, hbelow⟩ := exists_of_descend h
      simp only [bind_eq_ok, pure_eq_ok] at hbelow
      obtain ⟨expr, _, hexpr, rfl, rfl⟩ := hbelow
      exact .negate (char_eq_ok.mp (optional_eq_some.mp hminus))
        ((ih b (Nat.lt_succ_self b)).1 _ _ _ _ hexpr)
    | none =>
      obtain ⟨-, rfl⟩ := optional_eq_none.mp hminus
      exact derives_of_primary ih h

theorem derives_of_complete {b : Nat} {below : Nat → Node → Reader Node} {left : Node}
    {link : Link} (hoperands : OperandsDerive limit b)
    (h : link.complete ⟨operand limit b, below⟩ left s = .ok node rest) :
    Derives (.complete link left) b s node rest := by
  cases link with
  | logical op =>
    simp only [Link.complete, bind_eq_ok, pure_eq_ok] at h
    obtain ⟨right, _, hright, rfl, rfl⟩ := h
    exact .logical (hoperands.1 _ _ _ _ hright)
  | compare op =>
    simp only [Link.complete, bind_eq_ok, expecting_eq_ok, pure_eq_ok] at h
    obtain ⟨right, _, hright, rfl, rfl⟩ := h
    exact .compare (hoperands.1 _ _ _ _ hright)
  | arithmetic op =>
    simp only [Link.complete, bind_eq_ok, pure_eq_ok] at h
    obtain ⟨right, _, hright, rfl, rfl⟩ := h
    exact .arithmetic (hoperands.1 _ _ _ _ hright)
  | isNull negated =>
    simp only [Link.complete, pure_eq_ok] at h
    obtain ⟨rfl, rfl⟩ := h
    exact .isNull
  | inList negated =>
    simp only [Link.complete, bind_eq_ok, expecting_eq_ok, pure_eq_ok] at h
    obtain ⟨⟨⟩, start, hopen, list, stop, hlist, ⟨⟩, _, hclose, rfl, rfl⟩ := h
    exact .inList hopen (listed_of_separated1 hlist) (fun _ _ _ => hoperands.1 _ _ _ _) hclose
  | between negated =>
    simp only [Link.complete, bind_eq_ok, expecting_eq_ok, pure_eq_ok] at h
    obtain ⟨low, middle, hlow, ⟨⟩, start, hand, high, _, hhigh, rfl, rfl⟩ := h
    exact .between (hoperands.1 _ _ _ _ hlow) hand (hoperands.1 _ _ _ _ hhigh)

/-- Links are climbed until there is none that binds tightly enough. -/
theorem cases_of_climb {below : Option Below} {least : Nat} {left : Node}
    (h : climb limit below least left s = .ok node rest) :
    ((∀ link after, Link.read? s = some (link, after) → link.precedence < least) ∧
        left = node ∧ s = rest) ∨
      ∃ link start, Link.read? s = some (link, start) ∧ least ≤ link.precedence ∧
        descend limit below (fun below => do
          let joined ← link.complete below left
          below.chain least joined) start = .ok node rest := by
  rw [climb] at h
  cases hread : Link.read s with
  | ok found start =>
    cases found with
    | none =>
      simp only [hread, Outcome.ok.injEq] at h
      exact .inl ⟨by simp [Link.read?, hread, Outcome.found?], h⟩
    | some link =>
      have hlink : Link.read? s = some (link, start) := by
        simp [Link.read?, hread, Outcome.found?]
      simp only [hread] at h
      by_cases hleast : link.precedence < least
      · simp only [hleast, if_true, Outcome.ok.injEq] at h
        exact .inl ⟨by simp [hlink, hleast], h⟩
      · simp only [hleast, if_false] at h
        exact .inr ⟨link, start, hlink, Nat.le_of_not_lt hleast, h⟩
  | miss left' expected =>
    simp only [hread, Outcome.ok.injEq] at h
    exact .inl ⟨by simp [Link.read?, hread, Outcome.found?], h⟩
  | halt error =>
    rw [hread] at h
    cases h

theorem derives_of_climb {least : Nat} {left : Node} (ih : ∀ b < budget, OperandsDerive limit b)
    (h : climb limit (belowAt limit budget) least left s = .ok node rest) :
    Derives (.chain least left) budget s node rest := by
  obtain ⟨hstop, rfl, rfl⟩ | ⟨link, start, hread, hleast, h⟩ := cases_of_climb h
  · exact .chainStop hstop
  · obtain ⟨b, rfl, hbelow⟩ := exists_of_descend h
    obtain ⟨joined, stop, hjoined, hchain⟩ := bind_eq_ok.mp hbelow
    have hb := ih b (Nat.lt_succ_self b)
    exact .chainLink hread hleast (derives_of_complete hb hjoined) (hb.2 _ _ _ _ _ hchain)

theorem operandsDerive (limit b : Nat) : OperandsDerive limit b := by
  induction b using Nat.strongRecOn with
  | ind b ih =>
    constructor
    · intro least s node rest h
      rw [operand_eq, operandOf, bind_eq_ok] at h
      obtain ⟨left, middle, hleft, hchain⟩ := h
      exact .operand (derives_of_leading ih hleft) (derives_of_climb ih hchain)
    · intro least left s node rest h
      rw [chain_eq] at h
      exact derives_of_climb ih h

/-- Every expression that is read has a derivation. -/
theorem derives_of_expression (h : expression limit budget s = .ok node rest) :
    Derives (.operand loosest) budget s node rest :=
  (operandsDerive limit budget).1 _ _ _ _ h

/-! ### Tables -/

theorem derives_of_factor
    (ih : ∀ b < budget, ∀ s node rest, tables limit b s = .ok node rest →
      Derives .tables b s node rest)
    (h : factor limit budget s = .ok node rest) : Derives .factor budget s node rest := by
  simp only [factor_eq, factorOf, bind_eq_ok, spacing_eq_ok] at h
  obtain ⟨⟨⟩, _, rfl, paren?, middle, hparen, h⟩ := h
  cases paren? with
  | some =>
    simp only [Option.isSome_some, if_true] at h
    obtain ⟨b, rfl, hbelow⟩ := exists_of_descend_tables h
    simp only [bind_eq_ok, expecting_eq_ok, pure_eq_ok] at hbelow
    obtain ⟨inner, stop, hinner, ⟨⟩, _, hclose, rfl, rfl⟩ := hbelow
    exact .groupedTables (optional_eq_some.mp hparen) (ih b (Nat.lt_succ_self b) _ _ _ hinner) hclose
  | none =>
    obtain ⟨-, rfl⟩ := optional_eq_none.mp hparen
    simp only [Option.isSome_none, Bool.false_eq_true, if_false, bind_eq_ok, pure_eq_ok] at h
    obtain ⟨table, middle, htable, asName, _, halias, rfl, rfl⟩ := h
    exact .tableRef htable halias

/-- Joins are taken until there is none. -/
theorem cases_of_joinsOf {below : Option TablesBelow} {left : Node}
    (h : joinsOf limit below left s = .ok node rest) :
    (readJoin? s = none ∧ left = node ∧ s = rest) ∨
      ∃ kind start, readJoin? s = some (kind, start) ∧
        descend limit below (fun below => do
          let right ← expecting .joinedTable below.factor
          expecting .on (keyword "ON")
          let on ← below.condition
          below.joins (.join left kind right on)) start = .ok node rest := by
  rw [joinsOf] at h
  cases hread : readJoin s with
  | ok found start =>
    cases found with
    | none =>
      simp only [hread, Outcome.ok.injEq] at h
      exact .inl ⟨by simp [readJoin?, hread, Outcome.found?], h⟩
    | some kind =>
      simp only [hread] at h
      exact .inr ⟨kind, start, by simp [readJoin?, hread, Outcome.found?], h⟩
  | miss left' expected =>
    simp only [hread, Outcome.ok.injEq] at h
    exact .inl ⟨by simp [readJoin?, hread, Outcome.found?], h⟩
  | halt error =>
    rw [hread] at h
    cases h

theorem derives_of_joins {left : Node}
    (ih : ∀ b < budget, ∀ s node rest, tables limit b s = .ok node rest →
      Derives .tables b s node rest)
    (h : joins limit budget left s = .ok node rest) : Derives (.joins left) budget s node rest := by
  induction budget generalizing left s with
  | zero =>
    rw [joins_eq] at h
    obtain ⟨hread, rfl, rfl⟩ | ⟨kind, start, -, h⟩ := cases_of_joinsOf h
    · exact .joinsStop hread
    · obtain ⟨b, hb, -⟩ := exists_of_descend_tables h
      omega
  | succ b ihb =>
    rw [joins_eq] at h
    obtain ⟨hread, rfl, rfl⟩ | ⟨kind, start, hread, h⟩ := cases_of_joinsOf h
    · exact .joinsStop hread
    · obtain ⟨b', hb, hbelow⟩ := exists_of_descend_tables h
      obtain rfl : b = b' := by omega
      simp only [bind_eq_ok, expecting_eq_ok] at hbelow
      obtain ⟨right, middle, hright, ⟨⟩, condition, hword, on, stop, hon, hjoins⟩ := hbelow
      have ih' := fun b' (hb' : b' < b) => ih b' (Nat.lt_succ_of_lt hb')
      exact .join hread (derives_of_factor ih' hright) hword (derives_of_expression hon)
        (ihb ih' hjoins)

theorem derives_of_tables (h : tables limit budget s = .ok node rest) :
    Derives .tables budget s node rest := by
  induction budget using Nat.strongRecOn generalizing s node rest with
  | ind b ih =>
    rw [tables_eq, tablesOf, bind_eq_ok] at h
    obtain ⟨left, middle, hleft, hjoins⟩ := h
    rw [← factor_eq] at hleft
    rw [← joins_eq] at hjoins
    have ih' := fun b hb s node rest => @ih b hb s rest node
    exact .tables (derives_of_factor ih' hleft) (derives_of_joins ih' hjoins)

/-! ### Statements -/

theorem derives_of_selectItem (h : selectItem (expression limit budget) s = .ok node rest) :
    Derives .selectItem budget s node rest := by
  simp only [selectItem, orElse_eq_ok, bind_eq_ok, pure_eq_ok, spacing_eq_ok] at h
  rcases h with ⟨⟨⟩, middle, hstar, ⟨⟩, _, rfl, rfl, rfl⟩ |
    ⟨-, ⟨names, middle, hparts, ⟨⟩, _, hstar, rfl, rfl⟩ |
      ⟨-, value, middle, hvalue, asName, _, halias, rfl, rfl⟩⟩
  · exact .itemStar hstar
  · exact .qualifiedStar hparts hstar
  · exact .selectItem (derives_of_expression hvalue) halias

theorem derives_of_orderItem (h : orderItem (expression limit budget) s = .ok node rest) :
    Derives .orderItem budget s node rest := by
  simp only [orderItem, bind_eq_ok, pure_eq_ok] at h
  obtain ⟨value, middle, hvalue, order, _, horder, rfl, rfl⟩ := h
  exact .orderItem (derives_of_expression hvalue) horder

theorem clause_of_optional {opening : Reader Unit} {item : Reader Node} {clause : Option Node}
    (h : optional (opening *> item) s = .ok clause rest) :
    Clause opening (fun s node rest => item s = .ok node rest) s clause rest := by
  cases clause with
  | none =>
    obtain ⟨-, rfl⟩ := optional_eq_none.mp h
    exact .absent
  | some node =>
    obtain ⟨⟨⟩, start, hopening, hitem⟩ := seqRight_eq_ok.mp (optional_eq_some.mp h)
    exact .present hopening hitem

theorem listClause_of_listAfter {opening : Reader Unit} {item : Reader Node} {nodes : List Node}
    (h : listAfter opening item s = .ok nodes rest) :
    ListClause opening (fun s node rest => item s = .ok node rest) s nodes rest := by
  simp only [listAfter, bind_eq_ok, pure_eq_ok] at h
  obtain ⟨found, middle, hfound, rfl, rfl⟩ := h
  cases found with
  | none =>
    obtain ⟨-, rfl⟩ := optional_eq_none.mp hfound
    exact .absent
  | some nodes =>
    obtain ⟨⟨⟩, start, hopening, hitems⟩ := seqRight_eq_ok.mp (optional_eq_some.mp hfound)
    exact .present hopening (listed_of_separated1 hitems)

theorem derives_of_select {clauses : Clauses Node}
    (h : select limit budget s = .ok clauses rest) :
    Derives .select budget s (.query clauses) rest := by
  simp only [select, bind_eq_ok, pure_eq_ok, expecting_eq_ok] at h
  obtain ⟨⟨⟩, s₁, hselect, distinct, s₂, hdistinct, top, s₃, htop, items, s₄, hitems, tables, s₅,
    htables, condition, s₆, hcondition, groups, s₇, hgroups, having, s₈, hhaving, orders, _, horders,
    rfl, rfl⟩ := h
  exact .select hselect hdistinct rfl htop (listed_of_separated1 hitems)
    (listClause_of_listAfter htables) (clause_of_optional hcondition)
    (listClause_of_listAfter hgroups) (clause_of_optional hhaving)
    (listClause_of_listAfter horders) (fun _ _ _ => derives_of_selectItem)
    (fun _ _ _ => derives_of_tables) (fun _ _ _ => derives_of_expression)
    (fun _ _ _ => derives_of_orderItem)

/-- **Every statement that is read has a derivation**, and it is read to the end of the text. -/
theorem derives_of_statement (h : statement limit budget s = .ok node rest) :
    rest = [] ∧ Derives .statement budget s node rest := by
  simp only [statement, bind_eq_ok, orElse_eq_ok, pure_eq_ok, expecting_eq_ok, spacing_eq_ok,
    endOfText_eq_ok] at h
  obtain ⟨node, middle, hnode, mark, stop, hmark, ⟨⟩, _, rfl, ⟨⟩, _, ⟨hend, rfl⟩, rfl, rfl⟩ := h
  refine ⟨rfl, .statement ?_ hmark hend⟩
  rcases hnode with hnode | ⟨-, clauses, _, hclauses, rfl, rfl⟩
  · rw [crosstab.eq_def, bind_eq_ok] at hnode
    obtain ⟨⟨⟩, start, hword, hnode⟩ := hnode
    cases budget with
    | zero => exact absurd hnode not_halt_eq_ok
    | succ b =>
      simp only [bind_eq_ok, pure_eq_ok, expecting_eq_ok] at hnode
      obtain ⟨value, middle, hvalue, clauses, stop, hclauses, ⟨⟩, after, hpivot, pivot, _, hnode, rfl,
        rfl⟩ := hnode
      exact .crosstab hword (derives_of_expression hvalue) (derives_of_select hclauses) hpivot
        (derives_of_expression hnode)
  · exact .query (derives_of_select hclauses)

theorem derives_of_read (h : read limit s = .ok node) :
    Derives .statement (limit - 1) s node [] := by
  rw [read] at h
  cases hs : statement limit (limit - 1) s with
  | ok found rest =>
    rw [hs] at h
    cases h
    obtain ⟨rfl, hderives⟩ := derives_of_statement hs
    exact hderives
  | miss left expected =>
    rw [hs] at h
    cases h
  | halt error =>
    rw [hs] at h
    cases h

/-- What is parsed is read. -/
theorem read_of_parse {source : String} (h : parse source limit = .ok node) :
    read limit source.toList = .ok node := by
  rw [parse] at h
  split at h
  · cases h
  · exact h

end Sound

end JetSql.Grammar
