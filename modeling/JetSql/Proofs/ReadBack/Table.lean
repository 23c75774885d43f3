/-
Written tables and joins are read back.

As with the links of an expression, after the text of tables the reader goes on with the joins that
follow, with one level less for every join before.
-/

import JetSql.Proofs.ReadBack.Expression

namespace JetSql.Grammar

open Reader Node

variable {limit b : Nat} {s rest start stop middle : List Char} {node left right on : Node}

/-- The words that may follow one table. -/
def tableClosers : List String :=
  ["WHERE", "GROUP", "HAVING", "ORDER", "PIVOT", "ON", "INNER", "LEFT", "RIGHT"]

/-- The words that may follow joined tables. -/
def joinClosers : List String :=
  ["WHERE", "GROUP", "HAVING", "ORDER", "PIVOT", "ON"]

/-! ### Joins -/

theorem readJoin?_source (kind : JoinKind) (rest : List Char) :
    readJoin? (' ' :: (kind.symbol.toList ++ ' ' :: rest)) = some (kind, ' ' :: rest) := by
  cases kind <;> rfl

theorem closes_join (kind : JoinKind) (rest : List Char) :
    Closes tableClosers (' ' :: (kind.symbol.toList ++ ' ' :: rest)) := by
  refine .inl (.inr ?_)
  cases kind with
  | inner => exact ⟨"INNER", by decide, " JOIN".toList ++ ' ' :: rest, rfl, rfl⟩
  | left => exact ⟨"LEFT", by decide, " JOIN".toList ++ ' ' :: rest, rfl, rfl⟩
  | right => exact ⟨"RIGHT", by decide, " JOIN".toList ++ ' ' :: rest, rfl, rfl⟩

/-- No join is read where joined tables end. -/
theorem Closes.readJoin?_eq_none (h : Closes joinClosers s) : readJoin? s = none := by
  rcases h with (rfl | ⟨word, hword, rest, -, rfl⟩) | ⟨c, rest, rfl | rfl, rfl⟩
  · rfl
  · simp only [joinClosers, List.mem_cons, List.not_mem_nil, or_false] at hword
    rcases hword with rfl | rfl | rfl | rfl | rfl | rfl <;> rfl
  · rfl
  · rfl

theorem joins_of_stop (h : readJoin? s = none) : joins limit b left s = .ok left s := by
  rw [joins_eq, joinsOf]
  cases hread : readJoin s with
  | ok found start =>
    cases found with
    | none => rfl
    | some kind =>
      rw [readJoin?, hread] at h
      cases h
  | miss rest expected => rfl
  | halt error => exact absurd hread (neverHalts_readJoin s error)

theorem joins_of_closes (h : Closes joinClosers s) : joins limit b left s = .ok left s :=
  joins_of_stop h.readJoin?_eq_none

theorem joins_of_join {kind : JoinKind} (hread : readJoin? s = some (kind, start))
    (hright : factor limit b start = .ok right middle)
    (hon : keyword "ON" middle = .ok () stop)
    (hcondition : expression limit b stop = .ok on rest) :
    joins limit (b + 1) left s = joins limit b (.join left kind right on) rest := by
  rw [joins_eq, joinsOf, found?_eq_some.mp hread]
  change (expecting .joinedTable (factor limit b) >>= _) start = _
  rw [bind_apply, expecting_eq_ok.mpr hright]
  change (expecting .on (keyword "ON") >>= _) middle = _
  rw [bind_apply, expecting_eq_ok.mpr hon]
  change (expression limit b >>= _) stop = _
  rw [bind_apply, hcondition]

/-! ### Aliases -/

theorem isJoinSide_of_side {w : String} (h : w = "LEFT" ∨ w = "RIGHT") :
    isJoinSide ⟨w, false⟩ = true := by
  have hsame (side : String) (hside : w.toList.map Char.toLower = side.toList ∧
      side.toList.map Char.toLower = side.toList) : Text.sameWord w side = true := by
    rw [Text.sameWord, Text.toLower_eq side hside.1, Text.toLower_eq side hside.2, beq_self_eq_true]
  rcases h with rfl | rfl
  · simp [isJoinSide, hsame "left" (by decide)]
  · simp [isJoinSide, hsame "right" (by decide)]

theorem isName_of_side {w : String} (h : w = "LEFT" ∨ w = "RIGHT") : IsName w := by
  rcases h with rfl | rfl <;> refine ⟨by decide, ?_⟩
  · rw [isReserved, Text.toUpper_eq "LEFT" (by decide)]
    decide
  · rw [isReserved, Text.toUpper_eq "RIGHT" (by decide)]
    decide

/-- No alias is read where one table ends: a reserved word is none, nor is the side of a join. -/
theorem Closes.tableAlias_misses (h : Closes tableClosers s) : Misses tableAlias s := by
  have hnone {s : List Char} (hskip : skipSpacing s = s)
      (hs : s.head?.any Text.isWordStart = false) (hbracket : s.head? ≠ some '[') :
      Misses tableAlias s :=
    satisfying_misses.mpr (.inl (part_misses hskip hbracket (name_misses_of_head? hs)))
  rcases h with (rfl | ⟨word, hword, rest, hrest, rfl⟩) | ⟨c, rest, rfl | rfl, rfl⟩
  · exact hnone rfl rfl (by simp)
  · by_cases hside : word = "LEFT" ∨ word = "RIGHT"
    · have hpart : part (' ' :: (word.toList ++ rest)) = .ok ⟨word, false⟩ rest :=
        part_source (p := ⟨word, false⟩) (isName_of_side hside) hrest
      refine satisfying_misses.mpr (.inr ⟨_, _, hpart, ?_⟩)
      rw [isJoinSide_of_side hside]
      rfl
    · have hreserved : word ∈ reservedWords := by
        simp only [tableClosers, List.mem_cons, List.not_mem_nil, or_false] at hword
        rcases hword with rfl | rfl | rfl | rfl | rfl | rfl | rfl | rfl | rfl <;>
          first | decide | exact absurd (.inl rfl) hside | exact absurd (.inr rfl) hside
      have hisword := (by decide : ∀ w ∈ reservedWords, Text.isWord w.toList = true) word hreserved
      have hskip := skipSpacing_word hisword rest
      obtain ⟨c, cs, hcs, hc, -⟩ := Text.exists_of_isWord hisword
      have hbracket : (word.toList ++ rest).head? ≠ some '[' := by
        rw [hcs]
        rintro ⟨⟩
        exact absurd hc (by decide)
      have hpart := part_misses hskip hbracket (name_misses_reserved hreserved hrest)
      exact satisfying_misses.mpr (.inl hpart)
  · exact hnone (skipSpacing_cons (by decide) (by decide) _) rfl (by simp)
  · exact hnone (skipSpacing_cons (by decide) (by decide) _) rfl (by simp)

/-- The alias of a table is read back, and so is its absence. -/
theorem tableAlias_source {asName : Option Part}
    (h : ∀ p, asName = some p → p.Formed ∧ isJoinSide p = false) (hrest : Closes tableClosers rest) :
    optional (optional (keyword "AS") *> tableAlias) (aliasSource asName ++ rest) =
      .ok asName rest := by
  have hapart : Apart rest := (hrest.mono (by decide)).apart
  cases asName with
  | none =>
    have has : Misses (keyword "AS") rest := hrest.keyword_misses (by decide) (by decide)
    exact optional_eq_none.mpr ⟨seqRight_misses.mpr (.inr ⟨none, rest,
      optional_eq_none.mpr ⟨has, rfl⟩, hrest.tableAlias_misses⟩), rfl⟩
  | some p =>
    obtain ⟨hformed, hside⟩ := h p rfl
    have has : keyword "AS" (aliasSource (some p) ++ rest) = .ok () (' ' :: (p.source ++ rest)) :=
      keyword_source "AS" (by decide) rfl
    have hpart : part (' ' :: (p.source ++ rest)) = .ok p rest :=
      part_source hformed (hapart.head?_any (by decide))
    exact optional_eq_some.mpr (seqRight_eq_ok.mpr ⟨some (), _, optional_eq_some.mpr has,
      satisfying_eq_ok.mpr ⟨hpart, by simp [hside]⟩⟩)

/-! ### Tables -/

@[simp] theorem factor_blank (limit b : Nat) (s : List Char) :
    factor limit b (' ' :: s) = factor limit b s := by
  rw [factor_eq]
  rfl

@[simp] theorem tables_blank (limit b : Nat) (s : List Char) :
    tables limit b (' ' :: s) = tables limit b s := by
  rw [tables_eq, tablesOf, bind_apply, bind_apply, ← factor_eq, factor_blank]

theorem tables_of_factor (h : factor limit b s = .ok node rest) :
    tables limit b s = joins limit b node rest := by
  rw [tables_eq, tablesOf, bind_apply, ← factor_eq, h, joins_eq]

theorem factor_grouped (h : tables limit b s = .ok node (')' :: rest)) :
    factor limit (b + 1) ('(' :: s) = .ok (.grouped node) rest := by
  have hopen : symbol "(" ('(' :: s) = .ok () s :=
    symbol_eq_ok.mpr (skipSpacing_cons (by decide) (by decide) s)
  have hclose : symbol ")" (')' :: rest) = .ok () rest :=
    symbol_eq_ok.mpr (skipSpacing_cons (by decide) (by decide) rest)
  rw [factor_eq]
  refine bind_eq_ok.mpr ⟨(), '(' :: s, spacing_eq_ok.mpr (skipSpacing_cons (by decide) (by decide) s),
    bind_eq_ok.mpr ⟨some (), s, optional_eq_some.mpr hopen, ?_⟩⟩
  exact bind_eq_ok.mpr ⟨node, _, h, bind_eq_ok.mpr ⟨(), rest, expecting_eq_ok.mpr hclose, rfl⟩⟩

theorem factor_tableRef {names : List Part} {asName : Option Part} (hne : names ≠ [])
    (hnames : ∀ p ∈ names, p.Formed)
    (halias : ∀ p, asName = some p → p.Formed ∧ isJoinSide p = false)
    (hrest : Closes tableClosers rest) :
    factor limit b (partsSource names ++ (aliasSource asName ++ rest)) =
      .ok (.tableRef (.identifier names) asName) rest := by
  have hskip := skipSpacing_partsSource hne hnames (aliasSource asName ++ rest)
  have hopen : Misses (symbol "(") (partsSource names ++ (aliasSource asName ++ rest)) := by
    refine symbol_misses_of_head? (c := '(') rfl ?_
    rw [hskip]
    exact head?_partsSource_ne hne hnames (by decide) (by decide) _
  have hapart : Apart rest := (hrest.mono (by decide)).apart
  have hparts : parts (partsSource names ++ (aliasSource asName ++ rest)) =
      .ok names (aliasSource asName ++ rest) := by
    cases asName with
    | none => exact parts_source hne hnames (hapart.head?_any (by decide)) hapart.misses_furtherPart
    | some p =>
      exact parts_source hne hnames rfl
        (seqRight_misses.mpr (.inl (char_misses.mpr (by simp [aliasSource]))))
  rw [factor_eq]
  refine bind_eq_ok.mpr ⟨(), _, spacing_eq_ok.mpr hskip,
    bind_eq_ok.mpr ⟨none, _, optional_eq_none.mpr ⟨hopen, rfl⟩, ?_⟩⟩
  refine bind_eq_ok.mpr ⟨.identifier names, aliasSource asName ++ rest,
    bind_eq_ok.mpr ⟨names, _, hparts, rfl⟩, ?_⟩
  exact bind_eq_ok.mpr ⟨asName, rest, tableAlias_source halias hrest, rfl⟩

/-- What the role of a node among tables says of its text. -/
def Role.TablesReadBack (limit : Nat) : Role → Node → Prop
  | .factor, node => ∀ b rest, node.levels ≤ b → Closes tableClosers rest →
    Grammar.factor limit b (node.source ++ rest) = .ok node rest
  | .tables, node => ∀ b rest, node.levels ≤ b → Closes tableClosers rest →
    Grammar.tables limit b (node.source ++ rest) = joins limit (b - node.links) node rest
  | _, _ => True

/-- **Every formed table is read back from its text.** -/
theorem tables_source (limit : Nat) {role : Role} (h : Formed role node) :
    role.TablesReadBack limit node := by
  induction h with
  | tableRef hne hnames halias =>
    intro b rest _ hrest
    rw [source_tableRef, source_identifier, List.append_assoc]
    exact factor_tableRef hne hnames halias hrest
  | @groupedTables inner _ ih =>
    intro b rest hlevels hrest
    obtain ⟨b, rfl, hinside⟩ := exists_of_spends rfl hlevels
    rw [source_grouped, List.cons_append, List.append_assoc]
    have hread := ih b (')' :: rest) (hinside inner (by simp [inside, children])) (closes_paren ..)
    exact factor_grouped (hread.trans (joins_of_closes (closes_paren ..)))
  | @factor table htable ih =>
    intro b rest hlevels hrest
    have hlinks : table.links = 0 := by cases htable <;> rfl
    rw [tables_of_factor (ih b rest hlevels hrest), hlinks, Nat.sub_zero]
  | @join left right on kind _ _ hon ihleft ihright =>
    intro b rest hlevels hrest
    have hlinks : left.links + 1 ≤ b := spends_le hlevels
    have hleft := ihleft b (' ' :: (kind.symbol.toList ++ ' ' :: (right.source ++
      (" ON ".toList ++ (on.source ++ rest))))) (levels_le_of_mem_before hlevels (by simp [before]))
      (closes_join ..)
    have hright := ihright (b - (left.links + 1)) (" ON ".toList ++ (on.source ++ rest))
      (levels_le_of_mem_inside hlevels (by simp [inside]))
      (.inl (.inr ⟨"ON", by decide, ' ' :: (on.source ++ rest), rfl, rfl⟩))
    have hword : keyword "ON" (" ON ".toList ++ (on.source ++ rest)) =
        .ok () (' ' :: (on.source ++ rest)) :=
      (keyword_blank ..).trans (keyword_source _ (by decide) rfl)
    have hcondition := (operand_source limit hon).operand_of_closes (b := b - (left.links + 1))
      (levels_le_of_mem_inside hlevels (by simp [inside])) (hrest.mono (by decide))
    simp only [source_join, List.append_assoc, List.cons_append]
    rw [hleft, show b - left.links = b - (left.links + 1) + 1 by omega]
    exact joins_of_join (readJoin?_source ..) ((factor_blank ..).trans hright) hword
      ((operand_blank ..).trans hcondition)
  | _ => trivial

end JetSql.Grammar
