/-
Relations that the grammar hands on.

The grammar is put together from readers of tokens by a few combinators, and only a few readers look
at the text by themselves. A relation of readers that holds of those, and that the combinators hand
on, is a `Parametric` one. It relates the whole grammar under one limit to the grammar under another,
and a property of readers is such a relation that looks at one side only.

* **`Parametric.statement`:** a parametric relation relates the readers of statements, where one budget
  is at least the other.
-/

import JetSql.Grammar.Statement

namespace JetSql.Grammar

open Reader

/-- What follows a join, joined to the table before it. -/
def TablesBelow.complete (lower : TablesBelow) (left : Node) (kind : JoinKind) : Reader Node := do
  let right ← expecting .joinedTable lower.factor
  expecting .on (keyword "ON")
  let on ← lower.condition
  lower.joins (.join left kind right on)

/-- The marks that stand by themselves in a statement. -/
def marks : List String := ["(", ")", "*", ";"]

/-- A relation between readers under one limit and readers under another. It holds of the readers of
tokens, and the combinators hand it on. -/
structure Parametric (limit limit' : Nat) where
  Rel : ∀ {α : Type}, Reader α → Reader α → Prop
  pure : ∀ {α : Type} (value : α), Rel (Pure.pure value) (Pure.pure value)
  bind : ∀ {α β : Type} {reader reader' : Reader α} {next next' : α → Reader β},
    Rel reader reader' → (∀ value, Rel (next value) (next' value)) →
      Rel (reader >>= next) (reader' >>= next')
  orElse : ∀ {α : Type} {first first' second second' : Reader α},
    Rel first first' → Rel second second' → Rel (first <|> second) (first' <|> second')
  optional : ∀ {α : Type} {reader reader' : Reader α},
    Rel reader reader' → Rel (Reader.optional reader) (Reader.optional reader')
  expecting : ∀ {α : Type} {reader reader' : Reader α} (expectation : Expectation),
    Rel reader reader' →
      Rel (Reader.expecting expectation reader) (Reader.expecting expectation reader')
  separated0 : ∀ {item item' : Reader Node}, Rel item item' →
    Rel (Grammar.separated0 (Grammar.symbol ",") item) (Grammar.separated0 (Grammar.symbol ",") item')
  separated1 : ∀ {item item' : Reader Node}, Rel item item' →
    Rel (Grammar.separated1 (Grammar.symbol ",") item) (Grammar.separated1 (Grammar.symbol ",") item')
  /-- An error that is not about the text. -/
  halt : ∀ {α : Type} {error : Error}, error.category ≠ .grammar →
    Rel (Reader.halt error : Reader α) (Reader.halt error)
  /-- Where the first limit is met, the other one need not be. -/
  stop : ∀ {α : Type} (reader' : Reader α), Rel (Reader.halt (beyondLimit limit)) reader'
  spacing : Rel Grammar.spacing Grammar.spacing
  opening : Rel (Reader.char '(') (Reader.char '(')
  symbol : ∀ {mark : String}, mark ∈ marks → Rel (Grammar.symbol mark) (Grammar.symbol mark)
  keyword : ∀ {word : String}, word.toList ≠ [] ∧ word.toList.all Char.isUpper = true →
    Rel (Grammar.keyword word) (Grammar.keyword word)
  name : Rel Grammar.name Grammar.name
  part : Rel Grammar.part Grammar.part
  tableAlias : Rel Grammar.tableAlias Grammar.tableAlias
  parts : Rel Grammar.parts Grammar.parts
  identifier : Rel Grammar.identifier Grammar.identifier
  literal : Rel Grammar.literal Grammar.literal
  rowCount : Rel Grammar.rowCount Grammar.rowCount
  allOf : Rel (Reader.exactly ".*") (Reader.exactly ".*")
  endOfText : Rel Reader.endOfText Reader.endOfText
  /-- A minus sign is looked for right where the spacing ends. -/
  leading : ∀ {below below' : Option Below},
    Rel (descend limit below fun lower => return Node.not (← lower.operand 4))
        (descend limit' below' fun lower => return Node.not (← lower.operand 4)) →
      Rel (descend limit below fun lower => return Node.negate (← lower.operand 10))
        (descend limit' below' fun lower => return Node.negate (← lower.operand 10)) →
      Rel (primary limit below) (primary limit' below') →
      Rel (Grammar.leading limit below) (Grammar.leading limit' below')
  /-- The link is read before it is known whether it is taken. -/
  climb : ∀ {below below' : Option Below} (least : Nat) (left : Node),
    (∀ link : Link, Rel (descend limit below fun lower => link.complete lower left >>= lower.chain least)
        (descend limit' below' fun lower => link.complete lower left >>= lower.chain least)) →
      Rel (Grammar.climb limit below least left) (Grammar.climb limit' below' least left)
  /-- The words of a join are read before anything is spent on it. -/
  joinsOf : ∀ {below below' : Option TablesBelow} (left : Node),
    (∀ kind, Rel (descend limit below fun lower => lower.complete left kind)
        (descend limit' below' fun lower => lower.complete left kind)) →
      Rel (Grammar.joinsOf limit below left) (Grammar.joinsOf limit' below' left)

namespace Parametric

variable {limit limit' b b' : Nat} (r : Parametric limit limit')

theorem seqRight {α β : Type} {first first' : Reader α} {second second' : Reader β}
    (hfirst : r.Rel first first') (hsecond : r.Rel second second') :
    r.Rel (first *> second) (first' *> second') := by
  rw [seqRight_eq_bind, seqRight_eq_bind]
  exact r.bind hfirst fun _ => hsecond

/-- Going down a level, where there is one if there is one under the first limit. -/
theorem descend {α γ : Type} {below below' : Option γ} {next next' : γ → Reader α}
    (h : ∀ lower, below = some lower → ∃ lower', below' = some lower' ∧
      r.Rel (next lower) (next' lower')) :
    r.Rel (Grammar.descend limit below next) (Grammar.descend limit' below' next') := by
  cases below with
  | none => exact r.stop _
  | some lower =>
    obtain ⟨lower', rfl, hnext⟩ := h lower rfl
    exact hnext

theorem close : r.Rel (Reader.expecting .closingParenthesis (Grammar.symbol ")"))
    (Reader.expecting .closingParenthesis (Grammar.symbol ")")) :=
  r.expecting _ (r.symbol (by decide))

/-! ### Expressions -/

/-- What may be read one level down is related. -/
structure Lower (lower lower' : Below) : Prop where
  operand : ∀ least, r.Rel (lower.operand least) (lower'.operand least)
  chain : ∀ least left, r.Rel (lower.chain least left) (lower'.chain least left)

section Expressions

variable {below below' : Option Below} {lower lower' : Below}

theorem argument (h : r.Lower lower lower') :
    r.Rel (Grammar.argument lower) (Grammar.argument lower') :=
  r.orElse (r.seqRight (r.symbol (by decide)) (r.pure _)) (h.operand loosest)

theorem complete (h : r.Lower lower lower') (link : Link) (left : Node) :
    r.Rel (link.complete lower left) (link.complete lower' left) := by
  cases link with
  | logical op | arithmetic op => exact r.bind (h.operand _) fun _ => r.pure _
  | compare op => exact r.bind (r.expecting _ (h.operand 5)) fun _ => r.pure _
  | isNull negated => exact r.pure _
  | inList negated =>
    exact r.bind (r.expecting _ (r.symbol (by decide))) fun _ =>
      r.bind (r.separated1 (h.operand loosest)) fun _ => r.bind r.close fun _ => r.pure _
  | between negated =>
    exact r.bind (h.operand 5) fun _ => r.bind (r.expecting _ (r.keyword (by decide))) fun _ =>
      r.bind (h.operand 5) fun _ => r.pure _

variable (hbelow : ∀ lower, below = some lower → ∃ lower', below' = some lower' ∧ r.Lower lower lower')

include hbelow

/-- Going down to what hands on the relation. -/
theorem descend_below {α : Type} {next : Below → Reader α}
    (hnext : ∀ lower lower', r.Lower lower lower' → r.Rel (next lower) (next lower')) :
    r.Rel (Grammar.descend limit below next) (Grammar.descend limit' below' next) := by
  refine r.descend fun lower heq => ?_
  obtain ⟨lower', heq', hlower⟩ := hbelow lower heq
  exact ⟨lower', heq', hnext lower lower' hlower⟩

theorem arguments : r.Rel (Grammar.arguments limit below) (Grammar.arguments limit' below') := by
  refine r.bind (r.symbol (by decide)) fun _ => r.descend_below hbelow fun lower lower' hlower => ?_
  exact r.bind (r.separated0 (r.argument hlower)) fun _ => r.bind r.close fun _ => r.pure _

theorem conditional :
    r.Rel (Grammar.conditional limit below) (Grammar.conditional limit' below') := by
  refine r.bind (r.keyword (by decide)) fun _ => r.bind (r.arguments hbelow) fun args => ?_
  cases hargs : Node.conditionalOf args with
  | ok node => exact r.pure node
  | error error =>
    refine r.halt ?_
    unfold Node.conditionalOf at hargs
    split at hargs
    · cases hargs
    · cases hargs
      nofun

theorem primary : r.Rel (Grammar.primary limit below) (Grammar.primary limit' below') := by
  have hparenthesized : r.Rel (parenthesized limit below) (parenthesized limit' below') :=
    r.bind r.opening fun _ => r.descend_below hbelow fun _ _ hlower =>
      r.bind (hlower.operand loosest) fun _ => r.bind r.close fun _ => r.pure _
  have hcall : r.Rel (call limit below) (call limit' below') :=
    r.bind r.name fun _ => r.bind (r.arguments hbelow) fun _ => r.pure _
  exact r.orElse hparenthesized <| r.orElse (r.conditional hbelow) <| r.orElse hcall <|
    r.orElse r.literal r.identifier

theorem chained (least : Nat) (left : Node) :
    r.Rel (Grammar.climb limit below least left) (Grammar.climb limit' below' least left) :=
  r.climb least left fun link => r.descend_below hbelow fun _ _ hlower =>
    r.bind (r.complete hlower link left) fun joined => hlower.chain least joined

theorem operandOf (least : Nat) :
    r.Rel (Grammar.operandOf limit below least) (Grammar.operandOf limit' below' least) := by
  have hleading : r.Rel (Grammar.leading limit below) (Grammar.leading limit' below') := by
    refine r.leading ?_ ?_ (r.primary hbelow)
    · exact r.descend_below hbelow fun _ _ hlower => r.bind (hlower.operand 4) fun _ => r.pure _
    · exact r.descend_below hbelow fun _ _ hlower => r.bind (hlower.operand 10) fun _ => r.pure _
  exact r.bind hleading fun left => r.chained hbelow least left

end Expressions

/-- What may be read below a smaller budget. -/
theorem belowAt (hle : b ≤ b') : ∀ lower, Grammar.belowAt limit b = some lower →
    ∃ lower', Grammar.belowAt limit' b' = some lower' ∧ r.Lower lower lower' := by
  induction b generalizing b' with
  | zero =>
    intro lower hlower
    cases hlower
  | succ b ih =>
    obtain ⟨n, rfl⟩ : ∃ n, b' = n + 1 := ⟨b' - 1, by omega⟩
    have ih := ih (Nat.le_of_succ_le_succ hle)
    rintro lower ⟨⟩
    refine ⟨_, rfl, ?_, ?_⟩
    · intro least
      simp only [operand_eq]
      exact r.operandOf ih least
    · intro least left
      simp only [chain_eq]
      exact r.chained ih least left

theorem expression (hle : b ≤ b') :
    r.Rel (Grammar.expression limit b) (Grammar.expression limit' b') := by
  rw [Grammar.expression, Grammar.expression, operand_eq, operand_eq]
  exact r.operandOf (r.belowAt hle) loosest

/-! ### Tables -/

/-- What may be read of tables one level down is related. -/
structure LowerTables (lower lower' : TablesBelow) : Prop where
  tables : r.Rel lower.tables lower'.tables
  factor : r.Rel lower.factor lower'.factor
  joins : ∀ left, r.Rel (lower.joins left) (lower'.joins left)
  condition : r.Rel lower.condition lower'.condition

section Tables

variable {below below' : Option TablesBelow}
  (hbelow : ∀ lower, below = some lower → ∃ lower', below' = some lower' ∧
    r.LowerTables lower lower')

include hbelow

theorem factorOf : r.Rel (Grammar.factorOf limit below) (Grammar.factorOf limit' below') := by
  refine r.bind r.spacing fun _ => r.bind (r.optional (r.symbol (by decide))) fun found => ?_
  split
  · refine r.descend fun lower heq => ?_
    obtain ⟨lower', heq', hlower⟩ := hbelow lower heq
    exact ⟨lower', heq', r.bind hlower.tables fun _ => r.bind r.close fun _ => r.pure _⟩
  · have halias := r.seqRight (r.optional (r.keyword (by decide : "AS".toList ≠ [] ∧ _))) r.tableAlias
    exact r.bind r.identifier fun _ => r.bind (r.optional halias) fun _ => r.pure _

theorem joined (left : Node) :
    r.Rel (Grammar.joinsOf limit below left) (Grammar.joinsOf limit' below' left) := by
  refine r.joinsOf left fun kind => r.descend fun lower heq => ?_
  obtain ⟨lower', heq', hlower⟩ := hbelow lower heq
  refine ⟨lower', heq', r.bind (r.expecting _ hlower.factor) fun right => ?_⟩
  exact r.bind (r.expecting _ (r.keyword (by decide))) fun _ =>
    r.bind hlower.condition fun on => hlower.joins (.join left kind right on)

theorem tablesOf : r.Rel (Grammar.tablesOf limit below) (Grammar.tablesOf limit' below') :=
  r.bind (r.factorOf hbelow) fun left => r.joined hbelow left

end Tables

theorem tablesBelowAt (hle : b ≤ b') : ∀ lower, Grammar.tablesBelowAt limit b = some lower →
    ∃ lower', Grammar.tablesBelowAt limit' b' = some lower' ∧ r.LowerTables lower lower' := by
  induction b generalizing b' with
  | zero =>
    intro lower hlower
    cases hlower
  | succ b ih =>
    obtain ⟨n, rfl⟩ : ∃ n, b' = n + 1 := ⟨b' - 1, by omega⟩
    have hle := Nat.le_of_succ_le_succ hle
    rintro lower ⟨⟩
    refine ⟨_, rfl, ?_, ?_, ?_, r.expression hle⟩
    · simp only [tables_eq]
      exact r.tablesOf (ih hle)
    · simp only [factor_eq]
      exact r.factorOf (ih hle)
    · intro left
      simp only [joins_eq]
      exact r.joined (ih hle) left

theorem tables (hle : b ≤ b') : r.Rel (Grammar.tables limit b) (Grammar.tables limit' b') := by
  rw [tables_eq, tables_eq]
  exact r.tablesOf (r.tablesBelowAt hle)

/-! ### Statements -/

section Statements

variable {expr expr' : Reader Node}

theorem selectItem (h : r.Rel expr expr') :
    r.Rel (Grammar.selectItem expr) (Grammar.selectItem expr') := by
  have hstar : r.Rel (do Grammar.symbol "*"; Grammar.spacing; Pure.pure Node.star)
      (do Grammar.symbol "*"; Grammar.spacing; Pure.pure Node.star) :=
    r.bind (r.symbol (by decide)) fun _ => r.bind r.spacing fun _ => r.pure _
  have hqualified := r.bind r.parts fun names =>
    r.bind r.allOf fun _ => r.pure (Node.qualifiedStar names)
  have halias := r.optional (r.seqRight (r.keyword (by decide : "AS".toList ≠ [] ∧ _)) r.part)
  exact r.orElse hstar <| r.orElse hqualified <| r.bind h fun _ => r.bind halias fun _ => r.pure _

theorem orderItem (h : r.Rel expr expr') :
    r.Rel (Grammar.orderItem expr) (Grammar.orderItem expr') := by
  have hwords := r.orElse
    (r.seqRight (r.keyword (by decide : "ASC".toList ≠ [] ∧ _)) (r.pure SortOrder.asc))
    (r.seqRight (r.keyword (by decide : "DESC".toList ≠ [] ∧ _)) (r.pure SortOrder.desc))
  exact r.bind h fun _ => r.bind (r.optional hwords) fun _ => r.pure _

theorem listAfter {opening : Reader Unit} (hopening : r.Rel opening opening) (h : r.Rel expr expr') :
    r.Rel (Grammar.listAfter opening expr) (Grammar.listAfter opening expr') :=
  r.bind (r.optional (r.seqRight hopening (r.separated1 h))) fun _ => r.pure _

end Statements

theorem select (hle : b ≤ b') : r.Rel (Grammar.select limit b) (Grammar.select limit' b') := by
  have hexpr := r.expression hle
  have hword {word : String} (h : word.toList ≠ [] ∧ word.toList.all Char.isUpper = true) :
      r.Rel (Grammar.keyword word) (Grammar.keyword word) := r.keyword h
  rw [Grammar.select, Grammar.select]
  refine r.bind (hword (by decide)) fun _ => r.bind (r.optional (hword (by decide))) fun _ => ?_
  refine r.bind (r.optional (r.seqRight (hword (by decide)) r.rowCount)) fun _ => ?_
  refine r.bind (r.expecting _ (r.separated1 (r.selectItem hexpr))) fun _ => ?_
  refine r.bind (r.listAfter (hword (by decide)) (r.tables hle)) fun _ => ?_
  refine r.bind (r.optional (r.seqRight (hword (by decide)) hexpr)) fun _ => ?_
  refine r.bind (r.listAfter (r.seqRight (hword (by decide)) (hword (by decide))) hexpr) fun _ => ?_
  refine r.bind (r.optional (r.seqRight (hword (by decide)) hexpr)) fun _ => ?_
  exact r.bind (r.listAfter (r.seqRight (hword (by decide)) (hword (by decide)))
    (r.orderItem hexpr)) fun _ => r.pure _

theorem crosstab (hle : b ≤ b') :
    r.Rel (Grammar.crosstab limit b) (Grammar.crosstab limit' b') := by
  refine r.bind (r.keyword (by decide)) fun _ => ?_
  cases b with
  | zero => exact r.stop _
  | succ b =>
    obtain ⟨n, rfl⟩ : ∃ n, b' = n + 1 := ⟨b' - 1, by omega⟩
    have hle := Nat.le_of_succ_le_succ hle
    exact r.bind (r.expression hle) fun _ => r.bind (r.expecting _ (r.select hle)) fun _ =>
      r.bind (r.expecting _ (r.keyword (by decide))) fun _ =>
        r.bind (r.expression hle) fun _ => r.pure _

/-- **A relation that the combinators hand on relates the whole grammar** under one budget to the
grammar under another that is no less. -/
theorem statement (hle : b ≤ b') :
    r.Rel (Grammar.statement limit b) (Grammar.statement limit' b') := by
  have hquery : r.Rel (do return Node.query (← Grammar.select limit b))
      (do return Node.query (← Grammar.select limit' b')) :=
    r.bind (r.select hle) fun _ => r.pure _
  exact r.bind (r.orElse (r.crosstab hle) hquery) fun _ =>
    r.bind (r.optional (r.symbol (by decide))) fun _ => r.bind r.spacing fun _ =>
      r.bind (r.expecting _ r.endOfText) fun _ => r.pure _

end Parametric

end JetSql.Grammar
