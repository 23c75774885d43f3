/-
The depth that the scan finds is the depth of the parentheses in the tree.

The scan is run on a text before anything is read of it, and no more than the bound on its result
follows from the budget. Here its result is followed through a reading: `Deepens n s rest` says that
the scan comes from `s` to `rest` and meets parentheses nested `n` deep in between, no more and no
less. Tokens deepen nothing, phrases that follow one another deepen as much as the deeper of them, and
a pair of parentheses is one deeper than what stands in it.

* **`nestingDepth_of_parse`:** a text whose carriage returns all stand before line feeds, and which is
  parsed, nests as deeply as its tree.
-/

import JetSql.Proofs.Grammar.Levels
import JetSql.Proofs.Grammar.Nesting
import JetSql.Proofs.ReadBack.Nesting

namespace JetSql.Grammar

open Reader Node

variable {s middle rest : List Char} {b n m : Nat}

/-! ### Line ends -/

/-- Whether every carriage return of a text stands before a line feed. -/
def returnsPaired : List Char → Bool
  | [] => true
  | c :: rest => (c != '\r' || rest.head? == some '\n') && returnsPaired rest

theorem lineEndsWell_of_returnsPaired (h : returnsPaired s = true) : lineEndsWell s = true := by
  induction s with
  | nil => rfl
  | cons c s ih =>
    rw [returnsPaired, Bool.and_eq_true] at h
    by_cases hfeed : c = '\n'
    · simp [lineEndsWell, hfeed]
    by_cases hreturn : c = '\r'
    · simpa [lineEndsWell, hreturn] using h.1
    · simpa [lineEndsWell, hfeed, hreturn] using ih h.2

/-- Where every carriage return stands before a line feed, every comment ends well. -/
theorem commentsEndWell_of_returnsPaired (awaited : Option Char) (h : returnsPaired s = true) :
    commentsEndWell awaited s = true := by
  induction s generalizing awaited with
  | nil => rfl
  | cons c s ih =>
    rw [returnsPaired, Bool.and_eq_true] at h
    cases awaited with
    | some delimiter => exact ih _ h.2
    | none =>
      rw [commentsEndWell, Bool.and_eq_true]
      refine ⟨?_, ih _ h.2⟩
      cases s with
      | nil => simp
      | cons d s =>
        have hline := lineEndsWell_of_returnsPaired h.2
        by_cases hd : d = '-'
        · subst hd
          simp only [lineEndsWell] at hline
          simpa [opensComment] using .inr hline
        · simp [hd]

/-! ### The scan between two places -/

/-- What the scan has found before is a lower bound of what it finds, and nothing else. -/
theorem deepestFrom_max (awaited : Option Char) (level found deepest : Nat) (s : List Char) :
    deepestFrom awaited level (max found deepest) s =
      max found (deepestFrom awaited level deepest s) := by
  induction s generalizing awaited level deepest with
  | nil => rfl
  | cons c s ih =>
    cases awaited with
    | some delimiter => exact ih ..
    | none =>
      simp only [deepestFrom]
      split
      · rw [Nat.max_assoc, ih]
      · split
        · exact ih ..
        · exact ih ..

/-- The scan comes from one text to a later one with as many parentheses open as before, and on the
way it meets further ones nested `n` deep. -/
def Deepens (n : Nat) (s rest : List Char) : Prop :=
  commentsEndWell none s = true →
    commentsEndWell none rest = true ∧
      ∀ level, deepestFrom none level level s = deepestFrom none level (level + n) rest

theorem deepens_refl (s : List Char) : Deepens 0 s s :=
  fun hwell => ⟨hwell, fun _ => rfl⟩

theorem Deepens.trans (hfirst : Deepens n s middle) (hsecond : Deepens m middle rest) :
    Deepens (max n m) s rest := by
  intro hwell
  obtain ⟨hwell, hfirst⟩ := hfirst hwell
  obtain ⟨hwell, hsecond⟩ := hsecond hwell
  refine ⟨hwell, fun level => ?_⟩
  calc deepestFrom none level level s
      = deepestFrom none level (max (level + n) level) middle := by
        rw [hfirst, Nat.max_eq_left (Nat.le_add_right ..)]
    _ = max (level + n) (deepestFrom none level (level + m) rest) := by
        rw [deepestFrom_max, hsecond]
    _ = deepestFrom none level (level + max n m) rest := by
        rw [← deepestFrom_max, Nat.add_max_add_left]

/-- Where the scan meets no parentheses that were not there before, it deepens nothing. -/
theorem Scans.deepens (h : Scans False none 0 s rest) : Deepens 0 s rest := by
  intro hwell
  obtain ⟨hwell, h⟩ := h (.inr hwell)
  refine ⟨hwell.resolve_left not_false, fun level => ?_⟩
  obtain ⟨deepest, hle, heq⟩ := h level level
  have hdeepest : max level deepest = level + 0 := by omega
  calc deepestFrom none level level s
      = max level (deepestFrom none level level s) := by rw [← deepestFrom_max, Nat.max_self]
    _ = deepestFrom none level (level + 0) rest := by rw [heq, ← deepestFrom_max, hdeepest]

theorem Deepens.after (h : Deepens n middle rest) (hscan : Scans False none 0 s middle) :
    Deepens n s rest := by
  simpa using hscan.deepens.trans h

theorem Deepens.upTo (h : Deepens n s middle) (hscan : Scans False none 0 middle rest) :
    Deepens n s rest := by
  simpa using h.trans hscan.deepens

/-- A pair of parentheses is one level deeper than what stands in it. -/
theorem Deepens.parentheses (h : Deepens n s (')' :: rest)) : Deepens (1 + n) ('(' :: s) rest := by
  intro hwell
  obtain ⟨hwell, h⟩ := h (by simpa [commentsEndWell, closingDelimiter] using hwell)
  refine ⟨by simpa [commentsEndWell, closingDelimiter] using hwell, fun level => ?_⟩
  have hlevel : max level (level + 1) = level + 1 := Nat.max_eq_right (Nat.le_succ level)
  have hinside := h (level + 1)
  simp only [deepestFrom, if_true, hlevel, Nat.add_sub_cancel] at hinside ⊢
  rw [hinside, if_neg (by decide), Nat.add_assoc]

theorem Deepens.enclosed {start stop : List Char} (h : Deepens n start stop)
    (hopen : symbol "(" s = .ok () start) (hclose : symbol ")" stop = .ok () rest) :
    Deepens (1 + n) s rest := by
  have hskip := scans_skipSpacing False 0 s
  rw [symbol_eq_ok.mp hopen] at hskip
  have hstop := scans_skipSpacing False 0 stop
  rw [symbol_eq_ok.mp hclose] at hstop
  exact (h.upTo hstop).parentheses.after hskip

/-! ### Lists and clauses -/

section Lists

variable {item : List Char → Node → List Char → Prop} {nodes : List Node} {opening : Reader Unit}

theorem Listed.deepens (h : Listed (symbol ",") item s nodes rest)
    (hitem : ∀ s node rest, item s node rest → Deepens node.parens s rest) :
    Deepens (greatest (nodes.map parens)) s rest := by
  induction h with
  | last h => simpa using hitem _ _ _ h
  | cons h hsep _ ih =>
    exact (hitem _ _ _ h).trans (ih.after (flat_symbol (by decide) 0 _ _ _ hsep))

theorem Clause.deepens {clause : Option Node} (h : Clause opening item s clause rest)
    (hopening : opening.Flat)
    (hitem : ∀ s node rest, item s node rest → Deepens node.parens s rest) :
    Deepens (greatest (clause.toList.map parens)) s rest := by
  cases h with
  | absent => exact deepens_refl s
  | present hopens h =>
    have hnode := (hitem _ _ _ h).after (hopening 0 _ _ _ hopens)
    simpa using hnode

theorem ListClause.deepens (h : ListClause opening item s nodes rest)
    (hopening : opening.Flat)
    (hitem : ∀ s node rest, item s node rest → Deepens node.parens s rest) :
    Deepens (greatest (nodes.map parens)) s rest := by
  cases h with
  | absent => exact deepens_refl s
  | present hopens h => exact (h.deepens hitem).after (hopening 0 _ _ _ hopens)

end Lists

/-! ### Phrases -/

/-- The scan deepens over a phrase as much as the node is deep that the phrase makes. What goes on
from a left operand adds to it only what stands after that operand. -/
def Phrase.Counts : Phrase → List Char → Node → List Char → Prop
  | .chain _ left, s, node, rest | .complete _ left, s, node, rest | .joins left, s, node, rest =>
    ∃ n, node.parens = max left.parens n ∧ Deepens n s rest
  | _, s, node, rest => Deepens node.parens s rest

/-- A node without an operator before what it holds is as deep as that, and one deeper if it stands in
parentheses. -/
theorem parens_of_inside {node : Node} (hbefore : node.before = []) :
    node.parens = node.encloses + greatest (node.inside.map parens) := by
  rw [parens_eq, hbefore]
  simp

theorem parens_of_link {node left : Node} (hbefore : node.before = [left]) :
    node.parens = max left.parens (node.encloses + greatest (node.inside.map parens)) := by
  rw [parens_eq, hbefore]
  simp

theorem parens_leaf {node : Node} (hbefore : node.before = []) (hinside : node.inside = [])
    (hencloses : node.encloses = 0) : node.parens = 0 := by
  rw [parens_of_inside hbefore, hinside, hencloses]
  rfl

theorem parens_single {node child : Node} (hbefore : node.before = [])
    (hinside : node.inside = [child])
    (hencloses : node.encloses = 0) : node.parens = child.parens := by
  rw [parens_of_inside hbefore, hinside, hencloses]
  simp

/-- **Over every phrase the scan deepens as much as the tree.** -/
theorem counts_of_derives {phrase : Phrase} {node : Node} (h : Derives phrase b s node rest) :
    phrase.Counts s node rest := by
  have hskip (s : List Char) : Scans False none 0 s (skipSpacing s) := scans_skipSpacing False 0 s
  have hkeyword {word : String} (hword : word.toList.all Char.isUpper = true) {s rest : List Char}
      (h : keyword word s = .ok () rest) : Scans False none 0 s rest :=
    flat_keyword word hword 0 s () rest h
  induction h with
  | operand _ _ ihleading ihchain =>
    obtain ⟨n, hparens, hdeepens⟩ := ihchain
    have hwhole := Deepens.trans ihleading hdeepens
    rwa [← hparens] at hwhole
  | @not b _ _ _ expr hnot _ ih =>
    have hparens : (Node.not expr).parens = expr.parens := parens_single rfl rfl rfl
    change Deepens (parens _) _ _
    rw [hparens]
    exact Deepens.after (Deepens.after ih (hkeyword (by decide) hnot)) (hskip _)
  | @negate b _ _ _ expr hminus _ ih =>
    have hparens : (negate expr).parens = expr.parens := parens_single rfl rfl rfl
    change Deepens (parens _) _ _
    rw [hparens]
    exact Deepens.after ih (scans_minus 0 hminus False.elim)
  | grouped hopen _ hclose ih =>
    change Deepens (parens _) _ _
    rw [parens_of_inside rfl]
    have hinside := Deepens.enclosed ih (symbol_eq_ok.mpr hopen) hclose
    simpa [inside, children, encloses] using hinside
  | conditional hiif hopen hargs _ hclose ih =>
    change Deepens (parens _) _ _
    rw [parens_of_inside rfl]
    have hinside := (hargs.deepens ih).enclosed hopen hclose
    exact (hinside.after (hkeyword (by decide) hiif)).after (hskip _)
  | callEmpty hname hopen hclose =>
    change Deepens (parens _) _ _
    rw [parens_of_inside rfl]
    have hinside := (deepens_refl _).enclosed hopen hclose
    exact (hinside.after (flat_name 0 _ _ _ hname)).after (hskip _)
  | call hname hopen hargs _ hclose ih =>
    change Deepens (parens _) _ _
    rw [parens_of_inside rfl]
    have hinside := (hargs.deepens ih).enclosed hopen hclose
    exact (hinside.after (flat_name 0 _ _ _ hname)).after (hskip _)
  | literal h =>
    obtain ⟨value, rfl, -⟩ := formed_of_literal h
    change Deepens (parens _) _ _
    rw [parens_leaf rfl rfl rfl]
    exact ((hskip _).trans (flat_literal 0 _ _ _ h)).deepens
  | identifier h =>
    obtain ⟨names, rfl, -⟩ := formed_of_identifier h
    change Deepens (parens _) _ _
    rw [parens_leaf rfl rfl rfl]
    exact ((hskip _).trans (flat_identifier 0 _ _ _ h)).deepens
  | star h =>
    change Deepens (parens _) _ _
    rw [parens_leaf rfl rfl rfl]
    exact (flat_symbol (by decide) 0 _ _ _ h : Scans False ..).deepens
  | argument _ ih => exact ih
  | chainStop _ => exact ⟨0, (Nat.max_zero _).symm, deepens_refl _⟩
  | chainLink hread _ _ _ ihcomplete ihchain =>
    obtain ⟨n, hjoined, hcomplete⟩ := ihcomplete
    obtain ⟨m, hnode, hchain⟩ := ihchain
    refine ⟨max n m, by rw [hnode, hjoined, Nat.max_assoc], ?_⟩
    exact (hcomplete.trans hchain).after (scans_link 0 hread False.elim)
  | logical _ ih | arithmetic _ ih =>
    have hright : Deepens (parens _) _ _ := ih
    refine ⟨_, parens_of_link rfl, ?_⟩
    simpa [inside, encloses] using hright
  | compare _ ih =>
    have hright : Deepens (parens _) _ _ := ih
    have hoperator (op : CompareOp) : (operator op).parens = 0 := parens_leaf rfl rfl rfl
    refine ⟨_, parens_of_link rfl, ?_⟩
    simpa [inside, encloses, Node.compare, hoperator] using hright
  | isNull => exact ⟨_, parens_of_link rfl, deepens_refl _⟩
  | inList hopen hlist _ hclose ih =>
    refine ⟨_, parens_of_link rfl, ?_⟩
    exact (hlist.deepens ih).enclosed hopen hclose
  | between _ hand _ ihlow ihhigh =>
    refine ⟨_, parens_of_link rfl, ?_⟩
    have hbounds := Deepens.trans ihlow (Deepens.after ihhigh (hkeyword (by decide) hand))
    simpa [inside, encloses] using hbounds
  | groupedTables hopen _ hclose ih =>
    change Deepens (parens _) _ _
    rw [parens_of_inside rfl]
    have hinside := Deepens.enclosed ih hopen hclose
    simpa [inside, children, encloses] using hinside.after (hskip _)
  | @tableRef b _ _ _ table asName htable halias =>
    obtain ⟨names, rfl, -⟩ := formed_of_identifier htable
    have hparens : (Node.tableRef (.identifier names) asName).parens = 0 := by
      rw [parens_single rfl rfl rfl]
      exact parens_leaf rfl rfl rfl
    have hflat : Flat (Reader.optional (Reader.optional (keyword "AS") *> tableAlias)) :=
      ((flat_keyword _ (by decide)).optional.seqRight flat_part.satisfying).optional
    change Deepens (parens _) _ _
    rw [hparens]
    exact ((hskip _).trans ((flat_identifier 0 _ _ _ htable).trans (hflat 0 _ _ _ halias))).deepens
  | joinsStop _ => exact ⟨0, (Nat.max_zero _).symm, deepens_refl _⟩
  | @join b _ _ _ _ _ _ _ left right on _ hread _ hon _ _ ihright ihon ihjoins =>
    obtain ⟨n, hnode, hjoins⟩ := ihjoins
    have hright := Deepens.trans ihright (Deepens.after ihon (hkeyword (by decide) hon))
    refine ⟨max (max right.parens on.parens) n, ?_, (hright.trans hjoins).after (scans_join 0 hread)⟩
    rw [hnode, parens_of_link rfl, ← Nat.max_assoc]
    simp [inside, encloses]
  | tables _ _ ihfactor ihjoins =>
    obtain ⟨n, hparens, hdeepens⟩ := ihjoins
    have hwhole := Deepens.trans ihfactor hdeepens
    rwa [← hparens] at hwhole
  | itemStar h =>
    change Deepens (parens _) _ _
    rw [parens_leaf rfl rfl rfl]
    exact (Scans.trans (flat_symbol (by decide) 0 _ _ _ h) (hskip _)).deepens
  | qualifiedStar hparts hstar =>
    change Deepens (parens _) _ _
    rw [parens_leaf rfl rfl rfl]
    rw [exactly_eq_ok] at hstar
    rw [hstar] at hparts
    exact (Scans.trans (flat_parts 0 _ _ _ hparts) (scans_text (by decide) 0 _)).deepens
  | selectItem _ halias ih =>
    change Deepens (parens _) _ _
    rw [parens_single rfl rfl rfl]
    exact Deepens.upTo ih (((flat_keyword _ (by decide)).seqRight flat_part).optional 0 _ _ _ halias)
  | orderItem _ horder ih =>
    have hflat : Flat ((keyword "ASC" *> pure SortOrder.asc) <|> (keyword "DESC" *> pure .desc)) :=
      ((flat_keyword _ (by decide)).seqRight (flat_pure _)).orElse
        ((flat_keyword _ (by decide)).seqRight (flat_pure _))
    change Deepens (parens _) _ _
    rw [parens_single rfl rfl rfl]
    exact Deepens.upTo ih (hflat.optional 0 _ _ _ horder)
  | select hselect hdistinct _ htop hitems htables hcondition hgroups hhaving horders _ _ _ _ ihitems
      ihtables ihexprs ihorders =>
    have hword {word : String} (hword : word.toList.all Char.isUpper = true) := flat_keyword word hword
    have hopening : Scans False none 0 _ _ := (hkeyword (by decide) hselect).trans <|
      ((hword (by decide)).optional 0 _ _ _ hdistinct).trans <|
        ((hword (by decide)).seqRight flat_rowCount).optional 0 _ _ _ htop
    have hclauses := (hitems.deepens ihitems).trans <|
      (htables.deepens (hword (by decide)) ihtables).trans <|
      (hcondition.deepens (hword (by decide)) ihexprs).trans <|
      (hgroups.deepens ((hword (by decide)).seqRight (hword (by decide))) ihexprs).trans <|
      (hhaving.deepens (hword (by decide)) ihexprs).trans <|
      horders.deepens ((hword (by decide)).seqRight (hword (by decide))) ihorders
    change Deepens (parens _) _ _
    rw [parens_of_inside rfl]
    simpa [inside, children, encloses, Clauses.nodes, greatest_append, Nat.max_assoc] using
      hclauses.after hopening
  | query _ ih => exact ih
  | crosstab htransform _ _ hpivot _ ihvalue ihselect ihpivot =>
    have hparts := Deepens.trans ihvalue
      (Deepens.trans ihselect (Deepens.after ihpivot (hkeyword (by decide) hpivot)))
    change Deepens (parens _) _ _
    rw [parens_of_inside rfl]
    simpa [inside, children, encloses] using hparts.after (hkeyword (by decide) htransform)
  | @statement b _ _ stop _ _ _ hmark hstop ih =>
    have hend := hskip stop
    rw [hstop] at hend
    exact Deepens.upTo (Deepens.upTo ih ((flat_symbol (by decide)).optional 0 _ _ _ hmark)) hend

/-- The scan of a text that is read finds the depth of its tree, if the comments of the text end
well. -/
theorem nestingDepth_of_read {limit : Nat} {node : Node} (hcomments : CommentsEndWell s)
    (h : read limit s = .ok node) : nestingDepth s = node.parens := by
  obtain ⟨-, hdeepens⟩ := counts_of_derives (derives_of_read h) hcomments
  have hdepth := hdeepens 0
  rw [nestingDepth, hdepth, deepestFrom, Nat.zero_add]

end JetSql.Grammar

namespace JetSql

open Grammar Node

/-- **Where every carriage return stands before a line feed, the depth that the scan finds in a parsed
text is that of the parentheses in the tree; and a depth that is not zero leaves the limit a level for
the statement itself.** -/
theorem nestingDepth_of_parse {source : String} {limit : Nat} {node : Node}
    (hreturns : returnsPaired source.toList = true) (h : parse source limit = .ok node) :
    nestingDepth source.toList = node.parens ∧
      (nestingDepth source.toList ≠ 0 → nestingDepth source.toList + 1 ≤ limit) := by
  have hread := read_of_parse h
  have hdepth := nestingDepth_of_read (commentsEndWell_of_returnsPaired none hreturns) hread
  refine ⟨hdepth, fun hne => ?_⟩
  have hparens := parens_le_levels node
  have hlevels := levels_le_of_read hread
  omega

/-- A call with an argument in parentheses; the parenthesis in the literal counts for nothing. -/
theorem nestingDepth_of_parse_call :
    returnsPaired "SELECT f((1), ')')".toList = true ∧
      parse "SELECT f((1), ')')" 3 =
        .ok (selecting (.call "f" [.grouped (number "1"), string ")"])) ∧
      nestingDepth "SELECT f((1), ')')".toList =
        (selecting (.call "f" [.grouped (number "1"), string ")"])).parens ∧
      (nestingDepth "SELECT f((1), ')')".toList ≠ 0 →
        nestingDepth "SELECT f((1), ')')".toList + 1 ≤ 3) := by
  have hone : Formed .expr (number "1") := .literal (.whole (by decide) (by decide))
  have htext : Formed .expr (string ")") := .literal ⟨.inl rfl, by decide⟩
  have hcall : Formed .expr (.call "f" [.grouped (number "1"), string ")"]) :=
    .call (isName_of_toUpper "F" (by decide) (by decide) (by decide)) (List.forall_mem_cons.mpr
      ⟨.argument (.grouped hone), List.forall_mem_singleton.mpr (.argument htext)⟩)
  have hgrouped : (Node.grouped (number "1")).levels ≤ 1 :=
    levels_le_of_children rfl (by decide) (List.forall_mem_singleton.mpr (levels_leaf rfl rfl rfl))
  have hlevels : (Node.call "f" [.grouped (number "1"), string ")"]).levels ≤ 3 - 1 :=
    levels_le_of_children rfl (by decide) (List.forall_mem_cons.mpr
      ⟨hgrouped, List.forall_mem_singleton.mpr (levels_leaf rfl rfl rfl)⟩)
  have hreturns : returnsPaired "SELECT f((1), ')')".toList = true := by decide
  have hparse : parse "SELECT f((1), ')')" 3 = .ok (selecting (.call "f" _)) :=
    parse_of_selecting hcall hlevels rfl
  exact ⟨hreturns, hparse, nestingDepth_of_parse hreturns hparse⟩

end JetSql
