/-
Every derivation is read, under every budget that its tree fits.

A derivation tells how a text can be read, not what the reader tries before. The reader takes the same
way wherever the text goes on with something that may follow the phrase, and it gets to the end of it
if the budget has the levels that the tree needs: what it tries and gives up costs nothing, since it
is given up before it leads down.

* **`reads_of_derives`:** the readers follow every derivation whose tree fits the budget.
* **`read_iff_deepestLevel_le`:** so a limit lets a text be read as a tree exactly if some limit does
  and no level of the tree is beyond it.
-/

import JetSql.Proofs.Complete.Front
import JetSql.Proofs.Grammar.Levels
import JetSql.Proofs.ReadBack.Nesting

namespace JetSql.Grammar

open Reader Node

variable {limit b : Nat} {s start stop rest middle opening : List Char} {node left : Node}

/-! ### Lists and clauses -/

section Lists

variable {item : List Char → Node → List Char → Prop} {nodes : List Node} {reader : Reader Node}
  {opens : Reader Unit} {words : List String} {word : String}

/-- What a list goes on with after its first item is read, if the text after it is long enough. -/
theorem furtherItems_of_listed (h : Listed (symbol ",") item s nodes rest)
    (hlength : ∀ s node rest, item s node rest → rest.length ≤ s.length)
    (hread : ∀ s node rest, item s node rest → node ∈ nodes → Bounded rest →
      reader s = .ok node rest)
    (hrest : Bounded rest) (hcomma : Misses (symbol ",") rest) :
    ∃ node further middle, nodes = node :: further ∧ reader s = .ok node middle ∧
      middle.length ≤ s.length ∧ ∀ n, middle.length ≤ n →
        furtherItems (symbol ",") reader n middle = .ok further rest := by
  induction h with
  | @last s rest node hitem =>
    refine ⟨node, [], rest, rfl, hread _ _ _ hitem List.mem_cons_self hrest, hlength _ _ _ hitem, ?_⟩
    intro n _
    cases n with
    | zero => rfl
    | succ n =>
      exact bind_eq_ok.mpr ⟨none, rest, optional_eq_none.mpr
        ⟨seqRight_misses.mpr (.inl hcomma), rfl⟩, rfl⟩
  | @cons s middle next rest node further hitem hsep _ ih =>
    obtain ⟨node', further', middle', rfl, hread', hlength', hfurther⟩ :=
      ih (fun s node rest hitem hmem => hread s node rest hitem (List.mem_cons_of_mem _ hmem)) hrest
        hcomma
    have hbounded : Bounded middle := bounded_of_symbol (by decide) hsep
    refine ⟨node, node' :: further', middle, rfl, hread _ _ _ hitem List.mem_cons_self hbounded,
      hlength _ _ _ hitem, ?_⟩
    intro n hn
    have hshorter : 1 + next.length ≤ middle.length :=
      length_add_le_of_skipSpacing [','] (symbol_eq_ok.mp hsep)
    obtain ⟨m, rfl⟩ : ∃ m, n = m + 1 := ⟨n - 1, by omega⟩
    refine bind_eq_ok.mpr ⟨some node', middle', optional_eq_some.mpr
      (seqRight_eq_ok.mpr ⟨(), next, hsep, hread'⟩), ?_⟩
    exact bind_eq_ok.mpr ⟨further', rest, hfurther m (by omega), rfl⟩

theorem separated1_of_listed (h : Listed (symbol ",") item s nodes rest)
    (hlength : ∀ s node rest, item s node rest → rest.length ≤ s.length)
    (hread : ∀ s node rest, item s node rest → node ∈ nodes → Bounded rest →
      reader s = .ok node rest)
    (hrest : Bounded rest) (hcomma : Misses (symbol ",") rest) :
    separated1 (symbol ",") reader s = .ok nodes rest := by
  obtain ⟨node, further, middle, rfl, hnode, -, hfurther⟩ :=
    furtherItems_of_listed h hlength hread hrest hcomma
  exact bind_eq_ok.mpr ⟨node, middle, hnode,
    bind_eq_ok.mpr ⟨further, rest, hfurther _ (Nat.le_refl _), rfl⟩⟩

theorem separated0_of_listed (h : Listed (symbol ",") item s nodes rest)
    (hlength : ∀ s node rest, item s node rest → rest.length ≤ s.length)
    (hread : ∀ s node rest, item s node rest → node ∈ nodes → Bounded rest →
      reader s = .ok node rest)
    (hrest : Bounded rest) (hcomma : Misses (symbol ",") rest) :
    separated0 (symbol ",") reader s = .ok nodes rest := by
  obtain ⟨node, further, middle, rfl, hnode, -, hfurther⟩ :=
    furtherItems_of_listed h hlength hread hrest hcomma
  exact bind_eq_ok.mpr ⟨some node, middle, optional_eq_some.mpr hnode,
    bind_eq_ok.mpr ⟨further, rest, hfurther _ (Nat.le_refl _), rfl⟩⟩

/-- A closing parenthesis ends a list and what stands in it. -/
theorem bounded_of_close (hclose : symbol ")" s = .ok () rest) :
    Bounded s ∧ Misses (symbol ",") s := by
  refine ⟨bounded_of_symbol (by decide) hclose, symbol_misses_of_head? (c := ',') rfl ?_⟩
  rw [symbol_eq_ok.mp hclose]
  simp

theorem optional_of_clause {clause : Option Node} (h : Clause opens item s clause rest)
    (hopens : Misses opens rest)
    (hread : ∀ s node, item s node rest → node ∈ clause.toList → reader s = .ok node rest) :
    optional (opens *> reader) s = .ok clause rest := by
  cases h with
  | absent => exact optional_eq_none.mpr ⟨seqRight_misses.mpr (.inl hopens), rfl⟩
  | present hopen hitem =>
    exact optional_eq_some.mpr (seqRight_eq_ok.mpr ⟨(), _, hopen, hread _ _ hitem (by simp)⟩)

theorem listAfter_of_listClause (h : ListClause opens item s nodes rest)
    (hlength : ∀ s node rest, item s node rest → rest.length ≤ s.length)
    (hopens : Misses opens rest)
    (hread : ∀ s node rest, item s node rest → node ∈ nodes → Bounded rest →
      reader s = .ok node rest)
    (hrest : Bounded rest) (hcomma : Misses (symbol ",") rest) :
    listAfter opens reader s = .ok nodes rest := by
  cases h with
  | absent =>
    exact bind_eq_ok.mpr ⟨none, _, optional_eq_none.mpr ⟨seqRight_misses.mpr (.inl hopens), rfl⟩, rfl⟩
  | present hopen hitems =>
    exact bind_eq_ok.mpr ⟨some nodes, rest, optional_eq_some.mpr (seqRight_eq_ok.mpr
      ⟨(), _, hopen, separated1_of_listed hitems hlength hread hrest hcomma⟩), rfl⟩

theorem Clause.endsBefore {clause : Option Node} (h : Clause opens item s clause rest)
    (hopens : ∀ start, opens s = .ok () start → ∃ t, keyword word s = .ok () t)
    (hrest : EndsBefore words rest) : EndsBefore (word :: words) s := by
  cases h with
  | absent => exact hrest.mono (List.subset_cons_self _ _)
  | present hopen _ => exact .inr (.inr ⟨word, List.mem_cons_self, hopens _ hopen⟩)

theorem ListClause.endsBefore (h : ListClause opens item s nodes rest)
    (hopens : ∀ start, opens s = .ok () start → ∃ t, keyword word s = .ok () t)
    (hrest : EndsBefore words rest) : EndsBefore (word :: words) s := by
  cases h with
  | absent => exact hrest.mono (List.subset_cons_self _ _)
  | present hopen _ => exact .inr (.inr ⟨word, List.mem_cons_self, hopens _ hopen⟩)

end Lists

/-! ### Phrases -/

/-- What a derivation says of the readers: under every budget that the node fits, the phrase is read,
if what follows may follow it. A chain that goes on from a left operand has spent one level for each of
its links. -/
def Reads (limit : Nat) : Phrase → List Char → Node → List Char → Prop
  | .operand least, s, node, rest =>
    ∀ b, Bounded rest → node.levels ≤ b → operand limit b least s = .ok node rest
  | .leading, s, node, rest =>
    ∀ b, Bounded rest → node.levels ≤ b → leading limit (belowAt limit b) s = .ok node rest
  | .chain least left, s, node, rest =>
    left.levels ≤ node.levels ∧ (Bounded rest → Bounded s) ∧
      ∀ b, Bounded rest → node.levels ≤ b + left.links → chain limit b least left s = .ok node rest
  | .complete link left, s, node, rest =>
    left.levels ≤ node.levels ∧ node.spends = left.links + 1 ∧ node.links = left.links + 1 ∧
      ∀ b, Bounded rest → (∀ child ∈ node.inside, child.levels ≤ b) →
        link.complete ⟨operand limit b, chain limit b⟩ left s = .ok node rest
  | .argument, s, node, rest =>
    ∀ b, Bounded rest → node.levels ≤ b →
      argument ⟨operand limit b, chain limit b⟩ s = .ok node rest
  | .factor, s, node, rest => ∀ b, node.levels ≤ b → factor limit b s = .ok node rest
  | .joins left, s, node, rest =>
    left.levels ≤ node.levels ∧ (Bounded rest → Bounded s) ∧
      ∀ b, Bounded rest → node.levels ≤ b + left.links → joins limit b left s = .ok node rest
  | .tables, s, node, rest =>
    ∀ b, Bounded rest → node.levels ≤ b → tables limit b s = .ok node rest
  | .selectItem, s, node, rest =>
    ∀ b, Bounded rest → node.levels ≤ b → selectItem (expression limit b) s = .ok node rest
  | .orderItem, s, node, rest =>
    ∀ b, Bounded rest → node.levels ≤ b → orderItem (expression limit b) s = .ok node rest
  | .select, s, node, rest =>
    (∃ t, keyword "SELECT" s = .ok () t) ∧ ∃ clauses, node = .query clauses ∧
      ∀ b, EndsBefore ["PIVOT"] rest → node.levels ≤ b → select limit b s = .ok clauses rest
  | .body, s, node, rest =>
    ∀ b, EndsBefore [] rest → node.levels ≤ b →
      (crosstab limit b <|> (return .query (← select limit b))) s = .ok node rest
  | .statement, s, node, rest => ∀ b, node.levels ≤ b → statement limit b s = .ok node rest

/-- A node that spends nothing leaves its budget to what it holds. -/
theorem levels_le_of_mem_children {child : Node} (hbefore : node.before = [])
    (hlevels : node.levels ≤ b) (h : child ∈ node.children) : child.levels ≤ b := by
  rw [children_eq, hbefore, List.nil_append] at h
  exact Nat.le_trans (levels_le_of_mem_inside hlevels h) (Nat.sub_le b _)

/-- A link has at least the levels of what was read before it. -/
theorem levels_le_levels_of_before (hbefore : node.before = [left]) : left.levels ≤ node.levels :=
  levels_le_of_mem_before (Nat.le_refl _) (by rw [hbefore]; exact List.mem_singleton_self left)

/-- Where a link fits a chain, there is a level for it, and what stands after its operator fits what is
left. -/
theorem exists_of_link (hspends : node.spends = left.links + 1)
    (hlevels : node.levels ≤ b + left.links) :
    ∃ b', b = b' + 1 ∧ ∀ child ∈ node.inside, child.levels ≤ b' := by
  have hown := spends_le hlevels
  refine ⟨b - 1, by omega, fun child hchild => ?_⟩
  have := levels_le_of_mem_inside hlevels hchild
  omega

/-- Arguments in parentheses are read. -/
theorem arguments_of_listed {item : List Char → Node → List Char → Prop} {args : List Node}
    (hopen : symbol "(" opening = .ok () start) (hargs : Listed (symbol ",") item start args stop)
    (hitem : ∀ s node rest, item s node rest → rest.length ≤ s.length)
    (hread : ∀ s node rest, item s node rest → Reads limit .argument s node rest)
    (hclose : symbol ")" stop = .ok () rest) (hlevels : ∀ arg ∈ args, arg.levels ≤ b) :
    arguments limit (belowAt limit (b + 1)) opening = .ok args rest := by
  obtain ⟨hbounded, hcomma⟩ := bounded_of_close hclose
  have hlist : separated0 (symbol ",") (argument ⟨operand limit b, chain limit b⟩) start =
      .ok args stop :=
    separated0_of_listed hargs hitem (fun s node rest h hmem hrest =>
      hread s node rest h b hrest (hlevels node hmem)) hbounded hcomma
  exact bind_eq_ok.mpr ⟨(), start, hopen, bind_eq_ok.mpr ⟨args, stop, hlist,
    bind_eq_ok.mpr ⟨(), rest, expecting_eq_ok.mpr hclose, rfl⟩⟩⟩

theorem arguments_of_close (hopen : symbol "(" opening = .ok () start)
    (hclose : symbol ")" start = .ok () rest) :
    arguments limit (belowAt limit (b + 1)) opening = .ok [] rest := by
  have hlist : separated0 (symbol ",") (argument ⟨operand limit b, chain limit b⟩) start =
      .ok [] start :=
    bind_eq_ok.mpr ⟨none, start, optional_eq_none.mpr ⟨argument_misses_of_close hclose, rfl⟩, rfl⟩
  exact bind_eq_ok.mpr ⟨(), start, hopen, bind_eq_ok.mpr ⟨[], start, hlist,
    bind_eq_ok.mpr ⟨(), rest, expecting_eq_ok.mpr hclose, rfl⟩⟩⟩

/-- The clauses of a `SELECT` are read, each up to where the next one begins. -/
theorem select_of_clauses {s₁ s₂ s₃ s₄ s₅ s₆ s₇ s₈ : List Char} {distinct : Option Unit}
    {clauses : Clauses Node} {items tables exprs orders : List Char → Node → List Char → Prop}
    (hselect : keyword "SELECT" s = .ok () s₁)
    (hdistinct : optional (keyword "DISTINCT") s₁ = .ok distinct s₂)
    (hsame : clauses.distinct = distinct.isSome)
    (htop : optional (keyword "TOP" *> rowCount) s₂ = .ok clauses.top s₃)
    (hitems : Listed (symbol ",") items s₃ clauses.items s₄)
    (htables : ListClause (keyword "FROM") tables s₄ clauses.tables s₅)
    (hcondition : Clause (keyword "WHERE") exprs s₅ clauses.condition s₆)
    (hgroups : ListClause (keyword "GROUP" *> keyword "BY") exprs s₆ clauses.groups s₇)
    (hhaving : Clause (keyword "HAVING") exprs s₇ clauses.having s₈)
    (horders : ListClause (keyword "ORDER" *> keyword "BY") orders s₈ clauses.orders rest)
    (hitem : ∀ s node rest, items s node rest →
      rest.length ≤ s.length ∧ Reads limit .selectItem s node rest)
    (htable : ∀ s node rest, tables s node rest →
      rest.length ≤ s.length ∧ Reads limit .tables s node rest)
    (hexpr : ∀ s node rest, exprs s node rest →
      rest.length ≤ s.length ∧ Reads limit (.operand loosest) s node rest)
    (horder : ∀ s node rest, orders s node rest →
      rest.length ≤ s.length ∧ Reads limit .orderItem s node rest)
    (hrest : EndsBefore ["PIVOT"] rest) (hlevels : ∀ node ∈ clauses.nodes, node.levels ≤ b) :
    select limit b s = .ok clauses rest := by
  have hwords {first second : String} (s start : List Char)
      (h : (keyword first *> keyword second) s = .ok () start) : ∃ t, keyword first s = .ok () t := by
    obtain ⟨⟨⟩, t, ht, -⟩ := seqRight_eq_ok.mp h
    exact ⟨t, ht⟩
  have h₈ : EndsBefore ["ORDER", "PIVOT"] s₈ := horders.endsBefore (hwords s₈) hrest
  have h₇ : EndsBefore ["HAVING", "ORDER", "PIVOT"] s₇ :=
    hhaving.endsBefore (fun start h => ⟨start, h⟩) h₈
  have h₆ : EndsBefore ["GROUP", "HAVING", "ORDER", "PIVOT"] s₆ :=
    hgroups.endsBefore (hwords s₆) h₇
  have h₅ : EndsBefore ["WHERE", "GROUP", "HAVING", "ORDER", "PIVOT"] s₅ :=
    hcondition.endsBefore (fun start h => ⟨start, h⟩) h₆
  have h₄ : EndsBefore ["FROM", "WHERE", "GROUP", "HAVING", "ORDER", "PIVOT"] s₄ :=
    htables.endsBefore (fun start h => ⟨start, h⟩) h₅
  simp only [Clauses.nodes, List.forall_mem_append] at hlevels
  obtain ⟨⟨⟨⟨⟨hleveli, hlevelt⟩, hlevelc⟩, hlevelg⟩, hlevelh⟩, hlevelo⟩ := hlevels
  have hreaditems : separated1 (symbol ",") (selectItem (expression limit b)) s₃ =
      .ok clauses.items s₄ :=
    separated1_of_listed hitems (fun s node rest h => (hitem s node rest h).1)
      (fun s node rest h hmem hb => (hitem s node rest h).2 b hb (hleveli node hmem))
      (h₄.bounded (by decide)) (h₄.misses_comma (by decide))
  have hreadtables : listAfter (keyword "FROM") (Grammar.tables limit b) s₄ = .ok clauses.tables s₅ :=
    listAfter_of_listClause htables (fun s node rest h => (htable s node rest h).1)
      (h₅.keyword_misses (by decide) (by decide) (by decide))
      (fun s node rest h hmem hb => (htable s node rest h).2 b hb (hlevelt node hmem))
      (h₅.bounded (by decide)) (h₅.misses_comma (by decide))
  have hreadcondition : optional (keyword "WHERE" *> expression limit b) s₅ =
      .ok clauses.condition s₆ :=
    optional_of_clause hcondition (h₆.keyword_misses (by decide) (by decide) (by decide))
      fun s node h hmem => (hexpr s node s₆ h).2 b (h₆.bounded (by decide)) (hlevelc node hmem)
  have hreadgroups : listAfter (keyword "GROUP" *> keyword "BY") (expression limit b) s₆ =
      .ok clauses.groups s₇ :=
    listAfter_of_listClause hgroups (fun s node rest h => (hexpr s node rest h).1)
      (seqRight_misses.mpr (.inl (h₇.keyword_misses (by decide) (by decide) (by decide))))
      (fun s node rest h hmem hb => (hexpr s node rest h).2 b hb (hlevelg node hmem))
      (h₇.bounded (by decide)) (h₇.misses_comma (by decide))
  have hreadhaving : optional (keyword "HAVING" *> expression limit b) s₇ = .ok clauses.having s₈ :=
    optional_of_clause hhaving (h₈.keyword_misses (by decide) (by decide) (by decide))
      fun s node h hmem => (hexpr s node s₈ h).2 b (h₈.bounded (by decide)) (hlevelh node hmem)
  have hreadorders : listAfter (keyword "ORDER" *> keyword "BY") (orderItem (expression limit b)) s₈ =
      .ok clauses.orders rest :=
    listAfter_of_listClause horders (fun s node rest h => (horder s node rest h).1)
      (seqRight_misses.mpr (.inl (hrest.keyword_misses (by decide) (by decide) (by decide))))
      (fun s node rest h hmem hb => (horder s node rest h).2 b hb (hlevelo node hmem))
      (hrest.bounded (by decide)) (hrest.misses_comma (by decide))
  refine bind_eq_ok.mpr ⟨(), s₁, hselect, bind_eq_ok.mpr ⟨distinct, s₂, hdistinct,
    bind_eq_ok.mpr ⟨clauses.top, s₃, htop, bind_eq_ok.mpr ⟨clauses.items, s₄,
      expecting_eq_ok.mpr hreaditems, bind_eq_ok.mpr ⟨clauses.tables, s₅, hreadtables,
        bind_eq_ok.mpr ⟨clauses.condition, s₆, hreadcondition, bind_eq_ok.mpr ⟨clauses.groups, s₇,
          hreadgroups, bind_eq_ok.mpr ⟨clauses.having, s₈, hreadhaving,
            bind_eq_ok.mpr ⟨clauses.orders, rest, hreadorders, ?_⟩⟩⟩⟩⟩⟩⟩⟩⟩
  rw [← hsame]
  rfl

/-- **The readers follow every derivation whose tree fits the budget.** -/
theorem reads_of_derives (limit : Nat) {phrase : Phrase} (h : Derives phrase b s node rest) :
    Reads limit phrase s node rest := by
  induction h with
  | operand hleading _ ihleading ihchain =>
    obtain ⟨hlinks, -⟩ := fits_of_derives hleading
    obtain ⟨hleft, hbounded, hchain⟩ := ihchain
    intro b hrest hlevels
    rw [operand_of_leading (ihleading b (hbounded hrest) (Nat.le_trans hleft hlevels))]
    exact hchain b hrest (by rwa [hlinks])
  | not hnot _ ih =>
    intro b hrest hlevels
    obtain ⟨b, rfl, hinside⟩ := exists_of_spends rfl hlevels
    exact leading_of_not hnot (ih b hrest (hinside _ (List.mem_singleton_self _)))
  | negate hminus _ ih =>
    intro b hrest hlevels
    obtain ⟨b, rfl, hinside⟩ := exists_of_spends rfl hlevels
    exact leading_of_minus hminus (ih b hrest (hinside _ (List.mem_singleton_self _)))
  | grouped hopen _ hclose ih =>
    intro b hrest hlevels
    obtain ⟨b, rfl, hinside⟩ := exists_of_spends rfl hlevels
    exact leading_of_parenthesis hopen
      (ih b (bounded_of_close hclose).1 (hinside _ (List.mem_singleton_self _))) hclose
  | conditional hiif hopen hargs hitem hclose ih =>
    intro b hrest hlevels
    obtain ⟨b, rfl, hinside⟩ := exists_of_spends rfl hlevels
    exact leading_of_iif hiif (arguments_of_listed hopen hargs
      (fun s node rest h => length_le_of_derives (hitem s node rest h)) ih hclose hinside)
  | callEmpty hname hopen hclose =>
    intro b hrest hlevels
    obtain ⟨b, rfl, -⟩ := exists_of_spends rfl hlevels
    exact leading_of_callee hname (arguments_of_close hopen hclose)
  | call hname hopen hargs hitem hclose ih =>
    intro b hrest hlevels
    obtain ⟨b, rfl, hinside⟩ := exists_of_spends rfl hlevels
    exact leading_of_callee hname (arguments_of_listed hopen hargs
      (fun s node rest h => length_le_of_derives (hitem s node rest h)) ih hclose hinside)
  | literal h => exact fun b _ _ => leading_of_literal_ok h
  | identifier h => exact fun b hrest _ => leading_of_identifier h hrest.noCall
  | star h =>
    exact fun b _ _ => orElse_eq_ok.mpr (.inl (seqRight_eq_ok.mpr ⟨(), _, h, rfl⟩))
  | argument h ih =>
    intro b hrest hlevels
    exact orElse_eq_ok.mpr (.inr ⟨seqRight_misses.mpr (.inl (star_misses_of_operand h)),
      ih b hrest hlevels⟩)
  | chainStop hstop => exact ⟨Nat.le_refl _, id, fun b hrest _ => chain_of_stops hrest.unbroken hstop⟩
  | chainLink hread hleast _ _ ihcomplete ihchain =>
    obtain ⟨hleft, hspends, hlinks, hcomplete⟩ := ihcomplete
    obtain ⟨hjoined, hbounded, hchain⟩ := ihchain
    refine ⟨Nat.le_trans hleft hjoined, fun _ => bounded_of_read? hread, ?_⟩
    intro b hrest hlevels
    obtain ⟨b, rfl, hinside⟩ := exists_of_link hspends (Nat.le_trans hjoined hlevels)
    rw [chain_of_link hread hleast (hcomplete b (hbounded hrest) hinside)]
    exact hchain b hrest (by omega)
  | logical _ ih | arithmetic _ ih =>
    refine ⟨levels_le_levels_of_before rfl, rfl, rfl, fun b hrest hinside => ?_⟩
    have hright := ih b hrest (hinside _ (List.mem_singleton_self _))
    exact bind_eq_ok.mpr ⟨_, _, hright, rfl⟩
  | compare _ ih =>
    refine ⟨levels_le_levels_of_before rfl, rfl, rfl, fun b hrest hinside => ?_⟩
    have hright := ih b hrest (hinside _ (List.mem_cons_of_mem _ (List.mem_singleton_self _)))
    exact bind_eq_ok.mpr ⟨_, _, expecting_eq_ok.mpr hright, rfl⟩
  | isNull => exact ⟨levels_le_levels_of_before rfl, rfl, rfl, fun b _ _ => rfl⟩
  | inList hopen hlist hitem hclose ih =>
    refine ⟨levels_le_levels_of_before rfl, rfl, rfl, fun b hrest hinside => ?_⟩
    obtain ⟨hbounded, hcomma⟩ := bounded_of_close hclose
    have hitems := separated1_of_listed hlist
      (fun s node rest h => length_le_of_derives (hitem s node rest h))
      (fun s node rest h hmem hb => ih s node rest h b hb (hinside node hmem)) hbounded hcomma
    exact bind_eq_ok.mpr ⟨(), _, expecting_eq_ok.mpr hopen, bind_eq_ok.mpr ⟨_, _, hitems,
      bind_eq_ok.mpr ⟨(), _, expecting_eq_ok.mpr hclose, rfl⟩⟩⟩
  | between _ hand _ ihlow ihhigh =>
    refine ⟨levels_le_levels_of_before rfl, rfl, rfl, fun b hrest hinside => ?_⟩
    have hlow := ihlow b (bounded_of_keyword (by decide) hand) (hinside _ List.mem_cons_self)
    have hhigh := ihhigh b hrest (hinside _ (List.mem_cons_of_mem _ (List.mem_singleton_self _)))
    exact bind_eq_ok.mpr ⟨_, _, hlow, bind_eq_ok.mpr ⟨(), _, expecting_eq_ok.mpr hand,
      bind_eq_ok.mpr ⟨_, _, hhigh, rfl⟩⟩⟩
  | groupedTables hopen _ hclose ih =>
    intro b hlevels
    obtain ⟨b, rfl, hinside⟩ := exists_of_spends rfl hlevels
    have hread := ih b (bounded_of_close hclose).1 (hinside _ (List.mem_singleton_self _))
    rw [factor_eq]
    exact bind_eq_ok.mpr ⟨(), _, rfl, bind_eq_ok.mpr ⟨some (), _, optional_eq_some.mpr hopen,
      bind_eq_ok.mpr ⟨_, _, hread, bind_eq_ok.mpr ⟨(), _, expecting_eq_ok.mpr hclose, rfl⟩⟩⟩⟩
  | @tableRef _ s middle rest table asName htable halias =>
    intro b _
    have hparen : Misses (symbol "(") (skipSpacing s) := by
      obtain ⟨names, _, hnames, -⟩ := bind_eq_ok.mp htable
      exact symbol_misses_of_parts (c := '(') rfl ⟨by decide, by decide⟩ hnames
    rw [factor_eq]
    exact bind_eq_ok.mpr ⟨(), _, rfl, bind_eq_ok.mpr ⟨none, _, optional_eq_none.mpr ⟨hparen, rfl⟩,
      bind_eq_ok.mpr ⟨table, middle, htable, bind_eq_ok.mpr ⟨asName, rest, halias, rfl⟩⟩⟩⟩
  | joinsStop hstop => exact ⟨Nat.le_refl _, id, fun b _ _ => joins_of_stop hstop⟩
  | @join _ _ _ _ _ _ _ kind left right on _ hread _ hon _ _ ihright ihon ihjoins =>
    obtain ⟨hjoined, hbounded, hjoins⟩ := ihjoins
    refine ⟨Nat.le_trans (levels_le_levels_of_before rfl) hjoined,
      fun _ => bounded_of_readJoin? hread, ?_⟩
    intro b hrest hlevels
    have hspends : (join left kind right on).spends = left.links + 1 := rfl
    obtain ⟨b, rfl, hinside⟩ := exists_of_link hspends (Nat.le_trans hjoined hlevels)
    have hright := ihright b (hinside right List.mem_cons_self)
    have hcondition := ihon b (hbounded hrest)
      (hinside on (List.mem_cons_of_mem _ (List.mem_singleton_self on)))
    rw [joins_of_join hread hright hon hcondition]
    refine hjoins b hrest ?_
    change _ ≤ b + (left.links + 1)
    omega
  | tables hfactor _ ihfactor ihjoins =>
    obtain ⟨hlinks, -⟩ := fits_of_derives hfactor
    obtain ⟨hleft, -, hjoins⟩ := ihjoins
    intro b hrest hlevels
    rw [tables_of_factor (ihfactor b (Nat.le_trans hleft hlevels))]
    exact hjoins b hrest (by rwa [hlinks])
  | itemStar h =>
    exact fun b _ _ => orElse_eq_ok.mpr (.inl (bind_eq_ok.mpr ⟨(), _, h,
      bind_eq_ok.mpr ⟨(), _, rfl, rfl⟩⟩))
  | qualifiedStar hparts hstar =>
    have hnostar : Misses (symbol "*") _ :=
      symbol_misses_of_parts (c := '*') rfl ⟨by decide, by decide⟩ hparts
    refine fun b _ _ => orElse_eq_ok.mpr (.inr ⟨bind_misses.mpr (.inl hnostar),
      orElse_eq_ok.mpr (.inl ?_)⟩)
    exact bind_eq_ok.mpr ⟨_, _, hparts, bind_eq_ok.mpr ⟨(), _, hstar, rfl⟩⟩
  | @selectItem _ _ middle _ _ asName hexpr halias ih =>
    intro b hrest hlevels
    have hbounded : Bounded middle := by
      cases asName with
      | none =>
        obtain ⟨-, rfl⟩ := optional_eq_none.mp halias
        exact hrest
      | some p =>
        obtain ⟨⟨⟩, t, has, -⟩ := seqRight_eq_ok.mp (optional_eq_some.mp halias)
        exact bounded_of_keyword (by decide) has
    have hread := ih b hbounded (levels_le_of_mem_children rfl hlevels (List.mem_singleton_self _))
    refine orElse_eq_ok.mpr (.inr ⟨bind_misses.mpr (.inl (star_misses_of_operand hexpr)),
      orElse_eq_ok.mpr (.inr ⟨qualifiedStar_misses_of_operand hexpr hbounded.noPoint _, ?_⟩)⟩)
    exact bind_eq_ok.mpr ⟨_, _, hread, bind_eq_ok.mpr ⟨asName, _, halias, rfl⟩⟩
  | @orderItem _ _ middle _ _ order _ horder ih =>
    intro b hrest hlevels
    have hbounded : Bounded middle := by
      cases order with
      | none =>
        obtain ⟨-, rfl⟩ := optional_eq_none.mp horder
        exact hrest
      | some order =>
        simp only [optional_eq_some, orElse_eq_ok, seqRight_eq_ok] at horder
        rcases horder with ⟨⟨⟩, t, hword, -⟩ | ⟨-, ⟨⟩, t, hword, -⟩
        · exact bounded_of_keyword (by decide) hword
        · exact bounded_of_keyword (by decide) hword
    have hread := ih b hbounded (levels_le_of_mem_children rfl hlevels (List.mem_singleton_self _))
    exact bind_eq_ok.mpr ⟨_, _, hread, bind_eq_ok.mpr ⟨order, _, horder, rfl⟩⟩
  | select hselect hdistinct hsame htop hitems htables hcondition hgroups hhaving horders hitem htable
      hexpr horder ihitems ihtables ihexprs ihorders =>
    refine ⟨⟨_, hselect⟩, _, rfl, fun b hrest hlevels => ?_⟩
    exact select_of_clauses hselect hdistinct hsame htop hitems htables hcondition hgroups hhaving
      horders
      (fun s node rest h => ⟨length_le_of_derives (hitem s node rest h), ihitems s node rest h⟩)
      (fun s node rest h => ⟨length_le_of_derives (htable s node rest h), ihtables s node rest h⟩)
      (fun s node rest h => ⟨length_le_of_derives (hexpr s node rest h), ihexprs s node rest h⟩)
      (fun s node rest h => ⟨length_le_of_derives (horder s node rest h), ihorders s node rest h⟩)
      hrest fun node hmem => levels_le_of_mem_children rfl hlevels hmem
  | query _ ih =>
    obtain ⟨⟨t, hword⟩, clauses, rfl, ih⟩ := ih
    intro b hrest hlevels
    have hread := ih b (hrest.mono (List.nil_subset _)) hlevels
    have htransform : Misses (keyword "TRANSFORM") _ :=
      keyword_misses_of_keyword (by decide) (by decide) (by decide) hword
    exact orElse_eq_ok.mpr (.inr ⟨bind_misses.mpr (.inl htransform),
      bind_eq_ok.mpr ⟨clauses, _, hread, rfl⟩⟩)
  | crosstab htransform _ _ hpivot _ ihvalue ihselect ihpivot =>
    obtain ⟨⟨t, hword⟩, clauses, rfl, ihselect⟩ := ihselect
    intro b hrest hlevels
    obtain ⟨b, rfl, hinside⟩ := exists_of_spends rfl hlevels
    have hvalue := ihvalue b (bounded_of_keyword (by decide) hword) (hinside _ List.mem_cons_self)
    have hclauses := ihselect b
      (.inr (.inr ⟨"PIVOT", List.mem_singleton_self _, _, hpivot⟩))
      (hinside _ (List.mem_cons_of_mem _ List.mem_cons_self))
    have hlast := ihpivot b (hrest.bounded (List.nil_subset _))
      (hinside _ (List.mem_cons_of_mem _ (List.mem_cons_of_mem _ (List.mem_singleton_self _))))
    exact orElse_eq_ok.mpr (.inl (bind_eq_ok.mpr ⟨(), _, htransform, bind_eq_ok.mpr ⟨_, _, hvalue,
      bind_eq_ok.mpr ⟨clauses, _, expecting_eq_ok.mpr hclauses, bind_eq_ok.mpr ⟨(), _,
        expecting_eq_ok.mpr hpivot, bind_eq_ok.mpr ⟨_, _, hlast, rfl⟩⟩⟩⟩⟩))
  | @statement _ _ middle stop _ mark _ hmark hstop ih =>
    intro b hlevels
    have hends : EndsBefore [] middle := by
      cases mark with
      | none =>
        obtain ⟨-, rfl⟩ := optional_eq_none.mp hmark
        exact .inl hstop
      | some => exact .inr (.inl ⟨stop, optional_eq_some.mp hmark⟩)
    exact bind_eq_ok.mpr ⟨_, _, ih b hends hlevels, bind_eq_ok.mpr ⟨mark, stop, hmark,
      bind_eq_ok.mpr ⟨(), [], spacing_eq_ok.mpr hstop, rfl⟩⟩⟩

/-- A statement that some limit lets be read is read at every limit whose budget its tree fits. -/
theorem read_of_levels_le {limit' : Nat} (h : read limit' s = .ok node)
    (hlevels : node.levels ≤ limit - 1) : read limit s = .ok node := by
  have hstatement := reads_of_derives limit (derives_of_read h) (limit - 1) hlevels
  rw [read, hstatement, resultOf]

/-- **A text is read as a tree at a limit exactly if it is so read at some limit and the greatest level
in the tree, whose statement stands at level one, is not beyond the limit.** -/
theorem read_iff_deepestLevel_le (hlimit : 1 ≤ limit) :
    read limit s = .ok node ↔
      (∃ limit', read limit' s = .ok node) ∧ node.deepestLevel 1 ≤ limit := by
  rw [deepestLevel_eq]
  constructor
  · intro h
    have hlevels := levels_le_of_read h
    exact ⟨⟨limit, h⟩, by omega⟩
  · rintro ⟨⟨limit', h⟩, hlevels⟩
    exact read_of_levels_le h (by omega)

/-- Parentheses around a number are read at a limit of two, and the number stands at level two. -/
theorem read_iff_deepestLevel_le_grouped :
    1 ≤ 2 ∧ read 2 "SELECT (1)".toList = .ok (selecting (.grouped (number "1"))) ∧
      (∃ limit, read limit "SELECT (1)".toList = .ok (selecting (.grouped (number "1")))) ∧
      (selecting (.grouped (number "1"))).deepestLevel 1 ≤ 2 := by
  have hone : Formed .expr (number "1") := .literal (.whole (by decide) (by decide))
  have hlevels : (Node.grouped (number "1")).levels ≤ 2 - 1 :=
    levels_le_of_children rfl (by decide) (List.forall_mem_singleton.mpr (levels_leaf rfl rfl rfl))
  have hparse : parse "SELECT (1)" 2 = .ok (selecting (.grouped (number "1"))) :=
    parse_of_selecting (.grouped hone) hlevels rfl
  have hread := read_of_parse hparse
  exact ⟨by decide, hread, (read_iff_deepestLevel_le (by decide : 1 ≤ 2)).mp hread⟩

end JetSql.Grammar
