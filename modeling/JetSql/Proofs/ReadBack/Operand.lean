/-
What may begin an operand, each read back from its text: `NOT`, a minus sign, parentheses, calls,
literals and names. An alternative is reached when those before it miss, so most of what is shown
here is what a text is not.
-/

import JetSql.Proofs.ReadBack.Opening

namespace JetSql.Grammar

open Reader Node

variable {limit b least : Nat} {s rest start stop : List Char} {node left : Node}

theorem leading_blank (limit : Nat) (below : Option Below) (s : List Char) :
    leading limit below (' ' :: s) = leading limit below s := by
  rfl

@[simp] theorem operand_blank (limit b least : Nat) (s : List Char) :
    operand limit b least (' ' :: s) = operand limit b least s := by
  rw [operand_eq, operandOf, bind_apply, bind_apply, leading_blank]

/-! ### What may begin an operand -/

theorem leading_not (h : operand limit b 4 s = .ok node rest) :
    leading limit (belowAt limit (b + 1)) ("NOT ".toList ++ s) = .ok (.not node) rest := by
  have hnot : keyword "NOT" ("NOT".toList ++ ' ' :: s) = .ok () (' ' :: s) :=
    keyword_source _ (by decide) (by simp; decide)
  refine bind_eq_ok.mpr ⟨(), "NOT".toList ++ ' ' :: s, rfl,
    bind_eq_ok.mpr ⟨some (), ' ' :: s, optional_eq_some.mpr hnot, ?_⟩⟩
  exact bind_eq_ok.mpr ⟨node, rest, (operand_blank ..).trans h, rfl⟩

theorem leading_negate (hskip : skipSpacing ('-' :: s) = '-' :: s)
    (h : operand limit b 10 s = .ok node rest) :
    leading limit (belowAt limit (b + 1)) ('-' :: s) = .ok (.negate node) rest := by
  have hnot : Misses (keyword "NOT") ('-' :: s) :=
    keyword_misses_of_no_word (by decide) (by rw [hskip]; rfl)
  refine bind_eq_ok.mpr ⟨(), '-' :: s, spacing_eq_ok.mpr hskip,
    bind_eq_ok.mpr ⟨none, '-' :: s, optional_eq_none.mpr ⟨hnot, rfl⟩,
      bind_eq_ok.mpr ⟨some (), s, optional_eq_some.mpr (char_eq_ok.mpr rfl), ?_⟩⟩⟩
  exact bind_eq_ok.mpr ⟨node, rest, h, rfl⟩

theorem leading_of_primary {below : Option Below} (hskip : skipSpacing s = s)
    (hnot : Misses (keyword "NOT") s) (hminus : s.head? ≠ some '-')
    (h : primary limit below s = .ok node rest) : leading limit below s = .ok node rest :=
  bind_eq_ok.mpr ⟨(), s, spacing_eq_ok.mpr hskip,
    bind_eq_ok.mpr ⟨none, s, optional_eq_none.mpr ⟨hnot, rfl⟩,
      bind_eq_ok.mpr ⟨none, s, optional_eq_none.mpr ⟨char_misses.mpr hminus, rfl⟩, h⟩⟩⟩

/-! ### Primaries -/

theorem parenthesized_misses {below : Option Below} (h : s.head? ≠ some '(') :
    Misses (parenthesized limit below) s :=
  bind_misses.mpr (.inl (char_misses.mpr h))

theorem conditional_misses {below : Option Below} (h : Misses (keyword "IIF") s) :
    Misses (Grammar.conditional limit below) s :=
  bind_misses.mpr (.inl h)

theorem call_misses_of_name {below : Option Below} (h : Misses name s) :
    Misses (Grammar.call limit below) s :=
  bind_misses.mpr (.inl h)

/-- A name that no parenthesis follows makes no call. -/
theorem call_misses_of_arguments {below : Option Below} {w : String} (hname : name s = .ok w rest)
    (h : Misses (symbol "(") rest) : Misses (Grammar.call limit below) s :=
  bind_misses.mpr (.inr ⟨w, rest, hname, bind_misses.mpr (.inl (bind_misses.mpr (.inl h)))⟩)

theorem leading_of_literal {below : Option Below} (hskip : skipSpacing s = s)
    (hnot : Misses (keyword "NOT") s) (hiif : Misses (keyword "IIF") s) (hname : Misses name s)
    (hminus : s.head? ≠ some '-') (hparen : s.head? ≠ some '(') (h : literal s = .ok node rest) :
    leading limit below s = .ok node rest :=
  leading_of_primary hskip hnot hminus (orElse_eq_ok.mpr (.inr ⟨parenthesized_misses hparen,
    orElse_eq_ok.mpr (.inr ⟨conditional_misses hiif,
      orElse_eq_ok.mpr (.inr ⟨call_misses_of_name hname, orElse_eq_ok.mpr (.inl h)⟩)⟩)⟩))

theorem leading_literal {value : Literal} {below : Option Below} (h : value.Formed)
    (hrest : Apart rest) :
    leading limit below (value.source ++ rest) = .ok (.literal value) rest := by
  have hliteral := literal_source h hrest
  have hword : rest.head?.any Text.isWordChar = false := hrest.head?_any (by decide)
  rcases Literal.source_begins h with ⟨c, cs, hs, hc⟩ | ⟨w, hw, hs⟩
  · rw [hs] at hliteral ⊢
    have hskip : skipSpacing (c :: cs ++ rest) = c :: cs ++ rest :=
      skipSpacing_of_class (by decide) hc _
    have hstart := isWordStart_eq_false_of_opensLiteral hc
    have hnoword : (skipSpacing (c :: cs ++ rest)).head?.any Text.isWordStart = false := by
      rw [hskip]
      exact hstart
    refine leading_of_literal hskip (keyword_misses_of_no_word (by decide) hnoword)
      (keyword_misses_of_no_word (by decide) hnoword)
      (satisfying_misses.mpr (.inl (word_misses.mpr hstart))) ?_ ?_ hliteral <;>
    · rintro ⟨⟩
      exact absurd hc (by decide)
  · rw [hs] at hliteral ⊢
    have hisword := (by decide : ∀ w ∈ ["TRUE", "FALSE", "NULL"], Text.isWord w.toList = true) w hw
    have hreserved := (by decide : ∀ w ∈ ["TRUE", "FALSE", "NULL"], w ∈ reservedWords) w hw
    have hne (word : String) (hne : ∀ w ∈ ["TRUE", "FALSE", "NULL"],
        w.toList.map Char.toUpper ≠ word.toList) (hsteady : isSteady word = true) :
        Misses (keyword word) (w.toList ++ rest) :=
      keyword_misses_word _ hsteady hisword hword (hne w hw)
    obtain ⟨c, cs, hcs, hc, -⟩ := Text.exists_of_isWord hisword
    refine leading_of_literal (skipSpacing_word hisword rest) (hne "NOT" (by decide) (by decide))
      (hne "IIF" (by decide) (by decide)) (name_misses_reserved hreserved hword) ?_ ?_ hliteral <;>
    · rw [hcs]
      rintro ⟨⟩
      exact absurd hc (by decide)

theorem literal_misses (hskip : skipSpacing s = s) (hs : s.head?.any opensLiteral = false)
    (hwords : ∀ word ∈ ["TRUE", "FALSE", "NULL"], Misses (keyword word) s) :
    Misses literal s := by
  have hne (c : Char) (hc : opensLiteral c = true) : s.head? ≠ some c := by
    intro h
    simp [h, hc] at hs
  have hdigit : s.head?.any Char.isDigit = false := by
    cases hc : s.head? with
    | none => rfl
    | some c =>
      rw [hc, Option.any_some] at hs
      simp only [opensLiteral, Bool.or_eq_false_iff] at hs
      exact hs.2
  refine bind_misses.mpr (.inr ⟨(), s, spacing_eq_ok.mpr hskip, bind_misses.mpr (.inl ?_)⟩)
  refine orElse_misses.mpr ⟨stringLiteral_misses (hne _ (by decide)), orElse_misses.mpr
    ⟨stringLiteral_misses (hne _ (by decide)), orElse_misses.mpr
      ⟨dateLiteral_misses (hne _ (by decide)), orElse_misses.mpr
        ⟨numberLiteral_misses hdigit, orElse_misses.mpr ⟨?_, orElse_misses.mpr ⟨?_, ?_⟩⟩⟩⟩⟩⟩ <;>
    exact seqRight_misses.mpr (.inl (hwords _ (by decide)))

/-- A bare name that no parenthesis follows leaves the operand to the reader of dotted names. -/
theorem leading_of_name {w : String} {below : Option Below} (hw : IsName w)
    (hword : rest.head?.any Text.isWordChar = false) (hparen : Misses (symbol "(") rest)
    (h : Grammar.identifier (w.toList ++ rest) = .ok node stop) :
    leading limit below (w.toList ++ rest) = .ok node stop := by
  have hskip := skipSpacing_word hw.1 rest
  have hkeyword (word : String) (hreserved : word ∈ reservedWords ∧ isSteady word = true) :=
    keyword_misses_name hreserved hw hword
  have hhead (c : Char) (hc : Text.isWordStart c = false) := hw.head?_ne hc rest
  have hname : name (w.toList ++ rest) = .ok w rest := name_eq_ok.mpr ⟨rfl, hw, hword⟩
  have hconstants := (by decide : ∀ word ∈ ["TRUE", "FALSE", "NULL"],
    word ∈ reservedWords ∧ isSteady word = true)
  have hopens : (w.toList ++ rest).head?.any opensLiteral = false := by
    obtain ⟨c, cs, hcs, hc, -⟩ := Text.exists_of_isWord hw.1
    rw [hcs, List.cons_append, List.head?_cons, Option.any_some, ← Bool.not_eq_true]
    exact fun h => by simp [isWordStart_eq_false_of_opensLiteral h] at hc
  exact leading_of_primary hskip (hkeyword _ (by decide)) (hhead _ (by decide))
    (orElse_eq_ok.mpr (.inr ⟨parenthesized_misses (hhead _ (by decide)),
      orElse_eq_ok.mpr (.inr ⟨conditional_misses (hkeyword _ (by decide)),
        orElse_eq_ok.mpr (.inr ⟨call_misses_of_arguments hname hparen,
          orElse_eq_ok.mpr (.inr ⟨literal_misses hskip hopens fun word h =>
            hkeyword word (hconstants word h), h⟩)⟩)⟩)⟩))

/-- A bracket leaves the operand to the reader of dotted names. -/
theorem leading_of_bracket {below : Option Below}
    (h : Grammar.identifier ('[' :: s) = .ok node rest) :
    leading limit below ('[' :: s) = .ok node rest := by
  have hskip : skipSpacing ('[' :: s) = '[' :: s := skipSpacing_cons (by decide) (by decide) s
  have hkeyword (word : String) (hword : word.toList ≠ [] ∧ word.toList.all Char.isUpper = true) :
      Misses (keyword word) ('[' :: s) :=
    keyword_misses_of_no_word hword (by rw [hskip]; rfl)
  have hname : Misses name ('[' :: s) := satisfying_misses.mpr (.inl (word_misses.mpr rfl))
  exact leading_of_primary hskip (hkeyword _ (by decide)) (by simp)
    (orElse_eq_ok.mpr (.inr ⟨parenthesized_misses (by simp),
      orElse_eq_ok.mpr (.inr ⟨conditional_misses (hkeyword _ (by decide)),
        orElse_eq_ok.mpr (.inr ⟨call_misses_of_name hname,
          orElse_eq_ok.mpr (.inr ⟨literal_misses hskip rfl fun word h => hkeyword word
            ((by decide : ∀ word ∈ ["TRUE", "FALSE", "NULL"],
              word.toList ≠ [] ∧ word.toList.all Char.isUpper = true) word h), h⟩)⟩)⟩)⟩))

/-- A dotted name that makes no call is an operand. -/
theorem leading_identifier {names : List Part} {below : Option Below} (hne : names ≠ [])
    (hnames : ∀ p ∈ names, p.Formed) (hrest : Apart rest) :
    leading limit below (partsSource names ++ rest) = .ok (.identifier names) rest := by
  have hparts : Grammar.identifier (partsSource names ++ rest) = .ok (.identifier names) rest :=
    bind_eq_ok.mpr ⟨names, rest, parts_source hne hnames (hrest.head?_any (by decide))
      hrest.misses_furtherPart, rfl⟩
  obtain ⟨p, names, rfl⟩ := List.exists_cons_of_ne_nil hne
  have hp := hnames p List.mem_cons_self
  rw [partsSource, intercalate_map_cons, List.append_assoc] at hparts ⊢
  obtain ⟨w, _ | _⟩ := p
  · refine leading_of_name hp ?_ ?_ hparts
    · cases names with
      | nil => exact hrest.head?_any (by decide)
      | cons q names => rfl
    · cases names with
      | nil => exact hrest.noCall
      | cons q names =>
        refine symbol_misses_of_head? (c := '(') rfl ?_
        rw [List.flatMap_cons, List.append_assoc, List.append_assoc, List.singleton_append,
          skipSpacing_cons (by decide) (by decide)]
        simp
  · exact leading_of_bracket hparts

/-! ### Parentheses and arguments -/

/-- Nothing that is closed before it begins is an operand. -/
theorem operand_misses_close (limit b least : Nat) (rest : List Char) :
    Misses (operand limit b least) (')' :: rest) := by
  have hskip : skipSpacing (')' :: rest) = ')' :: rest :=
    skipSpacing_cons (by decide) (by decide) rest
  have hkeyword (word : String) (hword : word.toList ≠ [] ∧ word.toList.all Char.isUpper = true) :
      Misses (keyword word) (')' :: rest) :=
    keyword_misses_of_no_word hword (by rw [hskip]; rfl)
  have hname : Misses name (')' :: rest) := satisfying_misses.mpr (.inl (word_misses.mpr rfl))
  have hidentifier : Misses Grammar.identifier (')' :: rest) :=
    bind_misses.mpr (.inl (bind_misses.mpr (.inr ⟨(), _, spacing_eq_ok.mpr hskip,
      bind_misses.mpr (.inl (part_misses hskip (by simp) hname))⟩)))
  have hprimary : Misses (primary limit (belowAt limit b)) (')' :: rest) :=
    orElse_misses.mpr ⟨parenthesized_misses (by simp), orElse_misses.mpr
      ⟨conditional_misses (hkeyword _ (by decide)), orElse_misses.mpr
        ⟨call_misses_of_name hname, orElse_misses.mpr
          ⟨literal_misses hskip rfl fun word h => hkeyword word
            ((by decide : ∀ word ∈ ["TRUE", "FALSE", "NULL"],
              word.toList ≠ [] ∧ word.toList.all Char.isUpper = true) word h), hidentifier⟩⟩⟩⟩
  rw [operand_eq]
  exact bind_misses.mpr (.inl (bind_misses.mpr (.inr ⟨(), _, spacing_eq_ok.mpr hskip,
    bind_misses.mpr (.inr ⟨none, _, optional_eq_none.mpr ⟨hkeyword _ (by decide), rfl⟩,
      bind_misses.mpr (.inr ⟨none, _, optional_eq_none.mpr ⟨char_misses.mpr (by simp), rfl⟩,
        hprimary⟩)⟩)⟩)))

theorem primary_grouped (h : operand limit b loosest s = .ok node (')' :: rest)) :
    primary limit (belowAt limit (b + 1)) ('(' :: s) = .ok (.grouped node) rest := by
  refine orElse_eq_ok.mpr (.inl (bind_eq_ok.mpr ⟨(), s, char_eq_ok.mpr rfl, ?_⟩))
  refine bind_eq_ok.mpr ⟨node, ')' :: rest, h, bind_eq_ok.mpr ⟨(), rest, ?_, rfl⟩⟩
  rw [expecting_eq_ok, symbol_eq_ok]
  exact skipSpacing_cons (by decide) (by decide) rest

/-- Written arguments are read back. -/
theorem arguments_source {args : List Node}
    (hargs : ∀ arg ∈ args, ∀ rest, Closes closers rest →
      argument ⟨operand limit b, chain limit b⟩ (arg.source ++ rest) = .ok arg rest) :
    arguments limit (belowAt limit (b + 1)) ('(' :: (commas (args.map source) ++ ')' :: rest)) =
      .ok args rest := by
  have hblank (s : List Char) : argument ⟨operand limit b, chain limit b⟩ (' ' :: s) =
      argument ⟨operand limit b, chain limit b⟩ s :=
    orElse_congr rfl (operand_blank limit b loosest s)
  have hclose : skipSpacing (')' :: rest) = ')' :: rest :=
    skipSpacing_cons (by decide) (by decide) rest
  have hnone : Misses (argument ⟨operand limit b, chain limit b⟩) (')' :: rest) :=
    orElse_misses.mpr ⟨seqRight_misses.mpr (.inl (symbol_misses_of_head? (c := '*') rfl
      (by rw [hclose]; simp))), operand_misses_close ..⟩
  have hlist := separated0_commas (closes_comma closers) hblank hargs (closes_paren closers rest)
    (symbol_misses_of_head? (c := ',') rfl (by rw [hclose]; simp)) hnone
  refine bind_eq_ok.mpr ⟨(), _, symbol_eq_ok.mpr (skipSpacing_cons (by decide) (by decide) _), ?_⟩
  refine bind_eq_ok.mpr ⟨args, ')' :: rest, hlist, bind_eq_ok.mpr ⟨(), rest, ?_, rfl⟩⟩
  rw [expecting_eq_ok, symbol_eq_ok]
  exact hclose

theorem leading_grouped (h : operand limit b loosest s = .ok node (')' :: rest)) :
    leading limit (belowAt limit (b + 1)) ('(' :: s) = .ok (.grouped node) rest := by
  have hskip : skipSpacing ('(' :: s) = '(' :: s := skipSpacing_cons (by decide) (by decide) s
  exact leading_of_primary hskip (keyword_misses_of_no_word (by decide) (by rw [hskip]; rfl))
    (by simp) (primary_grouped h)

theorem leading_call {callee : String} {args : List Node} (hcallee : IsName callee)
    (h : arguments limit (belowAt limit (b + 1)) ('(' :: s) = .ok args rest) :
    leading limit (belowAt limit (b + 1)) (callee.toList ++ '(' :: s) =
      .ok (.call callee args) rest := by
  have hkeyword (word : String) (hword : word ∈ reservedWords ∧ isSteady word = true) :
      Misses (keyword word) (callee.toList ++ '(' :: s) := keyword_misses_name hword hcallee rfl
  have hname : name (callee.toList ++ '(' :: s) = .ok callee ('(' :: s) :=
    name_eq_ok.mpr ⟨rfl, hcallee, rfl⟩
  exact leading_of_primary (skipSpacing_word hcallee.1 _) (hkeyword _ (by decide))
    (hcallee.head?_ne (by decide) _)
    (orElse_eq_ok.mpr (.inr ⟨parenthesized_misses (hcallee.head?_ne (by decide) _),
      orElse_eq_ok.mpr (.inr ⟨conditional_misses (hkeyword _ (by decide)),
        orElse_eq_ok.mpr (.inl (bind_eq_ok.mpr ⟨callee, _, hname,
          bind_eq_ok.mpr ⟨args, rest, h, rfl⟩⟩))⟩)⟩))

theorem leading_conditional {condition thenValue elseValue : Node}
    (h : arguments limit (belowAt limit (b + 1)) ('(' :: s) =
      .ok [condition, thenValue, elseValue] rest) :
    leading limit (belowAt limit (b + 1)) ("IIF".toList ++ '(' :: s) =
      .ok (.conditional condition thenValue elseValue) rest := by
  have hnot : Misses (keyword "NOT") ("IIF".toList ++ '(' :: s) :=
    keyword_misses_word _ (by decide) (by decide) rfl (by decide)
  have hiif : keyword "IIF" ("IIF".toList ++ '(' :: s) = .ok () ('(' :: s) :=
    keyword_source _ (by decide) rfl
  exact leading_of_primary rfl hnot (by simp)
    (orElse_eq_ok.mpr (.inr ⟨parenthesized_misses (by simp),
      orElse_eq_ok.mpr (.inl (bind_eq_ok.mpr ⟨(), _, hiif, bind_eq_ok.mpr ⟨_, rest, h, rfl⟩⟩))⟩))

end JetSql.Grammar
