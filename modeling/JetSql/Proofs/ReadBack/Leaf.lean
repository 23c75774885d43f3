/-
Written lists, names and literals are read back.
-/

import JetSql.Proofs.ReadBack.Token

namespace JetSql.Grammar

open Reader

/-! ### Lists -/

section Lists

variable {α : Type} {separator : Reader Unit} {item : Reader α} {text : α → List Char}
  {mark s rest : List Char} {After : List Char → Prop} {Left : List Char → List Char → Prop}
  {values : List α}

theorem after_flatMap (text : α → List Char) (values : List α) (hafter : ∀ s, After (mark ++ s))
    (hrest : After rest) :
    After ((values.flatMap fun v => mark ++ text v) ++ rest) := by
  cases values with
  | nil => exact hrest
  | cons v values =>
    rw [List.flatMap_cons, List.append_assoc, List.append_assoc]
    exact hafter _

/-- Items that are written with a mark before each of them are read to the last one. `Left` relates
what a reader leaves to the text after the item. -/
theorem furtherItems_source (hafter : ∀ s, After (mark ++ s))
    (hnext : ∀ v ∈ values, ∀ rest, After rest → ∀ s, Left s (mark ++ (text v ++ rest)) →
      ∃ stop, Left stop rest ∧ (separator *> item) s = .ok v stop)
    (hrest : After rest) (hstop : ∀ s, Left s rest → Misses (separator *> item) s)
    (hs : Left s ((values.flatMap fun v => mark ++ text v) ++ rest)) {n : Nat}
    (hn : values.length ≤ n) :
    ∃ stop, Left stop rest ∧ furtherItems separator item n s = .ok values stop := by
  induction values generalizing n s with
  | nil =>
    cases n with
    | zero => exact ⟨s, hs, rfl⟩
    | succ n =>
      exact ⟨s, hs, bind_eq_ok.mpr ⟨none, s, optional_eq_none.mpr ⟨hstop s hs, rfl⟩, rfl⟩⟩
  | cons v values ih =>
    obtain ⟨n, rfl⟩ : ∃ m, n = m + 1 := ⟨n - 1, by simp at hn; omega⟩
    rw [List.flatMap_cons, List.append_assoc, List.append_assoc] at hs
    obtain ⟨middle, hmiddle, hv⟩ :=
      hnext v List.mem_cons_self _ (after_flatMap text values hafter hrest) s hs
    obtain ⟨stop, hleft, hvalues⟩ := ih (fun w hw => hnext w (List.mem_cons_of_mem _ hw)) hmiddle
      (n := n) (by simpa using hn)
    exact ⟨stop, hleft, bind_eq_ok.mpr ⟨some v, middle, optional_eq_some.mpr hv,
      bind_eq_ok.mpr ⟨values, stop, hvalues, rfl⟩⟩⟩

theorem length_le_length_flatMap (text : α → List Char) (values : List α) (hmark : mark ≠ []) :
    values.length ≤ (values.flatMap fun v => mark ++ text v).length := by
  have := List.length_pos_iff.mpr hmark
  induction values with
  | nil => simp
  | cons v values ih =>
    simp only [List.length_cons, List.flatMap_cons, List.length_append]
    omega

/-- A list that is written with a mark between its items is read back. -/
theorem separated1_source (mark : List Char) (After : List Char → Prop)
    (Left : List Char → List Char → Prop) (hmark : mark ≠ []) (hafter : ∀ s, After (mark ++ s))
    (hlength : ∀ s t, Left s (mark ++ t) → (mark ++ t).length ≤ s.length)
    (hfirst : ∀ v ∈ values, ∀ rest, After rest →
      ∃ stop, Left stop rest ∧ item (text v ++ rest) = .ok v stop)
    (hnext : ∀ v ∈ values, ∀ rest, After rest → ∀ s, Left s (mark ++ (text v ++ rest)) →
      ∃ stop, Left stop rest ∧ (separator *> item) s = .ok v stop)
    (hne : values ≠ []) (hrest : After rest)
    (hstop : ∀ s, Left s rest → Misses (separator *> item) s) :
    ∃ stop, Left stop rest ∧
      separated1 separator item (mark.intercalate (values.map text) ++ rest) = .ok values stop := by
  obtain ⟨v, values, rfl⟩ := List.exists_cons_of_ne_nil hne
  obtain ⟨middle, hmiddle, hv⟩ := hfirst v List.mem_cons_self _
    (after_flatMap text values hafter hrest)
  have hn : values.length ≤ middle.length := by
    cases values with
    | nil => exact Nat.zero_le _
    | cons w values =>
      have hcount := length_le_length_flatMap text (w :: values) hmark
      rw [List.flatMap_cons, List.append_assoc, List.append_assoc] at hmiddle
      have := hlength _ _ hmiddle
      simp only [List.flatMap_cons, List.length_append] at hcount this
      omega
  obtain ⟨stop, hleft, hvalues⟩ := furtherItems_source hafter
    (fun w hw => hnext w (List.mem_cons_of_mem _ hw)) hrest hstop hmiddle hn
  rw [intercalate_map_cons, List.append_assoc]
  exact ⟨stop, hleft, bind_eq_ok.mpr ⟨v, middle, hv, bind_eq_ok.mpr ⟨values, stop, hvalues, rfl⟩⟩⟩

/-- A list that is written with commas is read back. -/
theorem separated1_commas (hafter : ∀ s, After (',' :: s))
    (hblank : ∀ s, item (' ' :: s) = item s)
    (hitem : ∀ v ∈ values, ∀ rest, After rest → item (text v ++ rest) = .ok v rest)
    (hne : values ≠ []) (hrest : After rest) (hstop : Misses (symbol ",") rest) :
    separated1 (symbol ",") item (commas (values.map text) ++ rest) = .ok values rest := by
  obtain ⟨stop, rfl, h⟩ := separated1_source [',', ' '] After Eq (by simp)
    (fun s => hafter _) (fun s t h => Nat.le_of_eq (by rw [h]))
    (fun v hv rest hrest => ⟨rest, rfl, hitem v hv rest hrest⟩)
    (by
      rintro v hv rest hrest s rfl
      refine ⟨rest, rfl, seqRight_eq_ok.mpr ⟨(), ' ' :: (text v ++ rest), ?_, ?_⟩⟩
      · exact symbol_eq_ok.mpr (skipSpacing_cons (by decide) (by decide) _)
      · rw [hblank, hitem v hv rest hrest])
    hne hrest (fun s hs => seqRight_misses.mpr (.inl (hs ▸ hstop)))
  exact h

theorem separated1_blank (hblank : ∀ s, item (' ' :: s) = item s)
    (h : separated1 separator item s = .ok values rest) :
    separated1 separator item (' ' :: s) = .ok values rest := by
  obtain ⟨v, middle, hv, hmore⟩ := bind_eq_ok.mp h
  exact bind_eq_ok.mpr ⟨v, middle, (hblank s).trans hv, hmore⟩

/-- A list that is written with commas, or nothing, is read back. -/
theorem separated0_commas (hafter : ∀ s, After (',' :: s))
    (hblank : ∀ s, item (' ' :: s) = item s)
    (hitem : ∀ v ∈ values, ∀ rest, After rest → item (text v ++ rest) = .ok v rest)
    (hrest : After rest) (hstop : Misses (symbol ",") rest) (hnone : Misses item rest) :
    separated0 (symbol ",") item (commas (values.map text) ++ rest) = .ok values rest := by
  cases values with
  | nil =>
    rw [separated0, bind_eq_ok]
    exact ⟨none, rest, optional_eq_none.mpr ⟨hnone, rfl⟩, rfl⟩
  | cons v values =>
    have h := separated1_commas hafter hblank hitem (List.cons_ne_nil v values) hrest hstop
    obtain ⟨first, middle, hfirst, h⟩ := bind_eq_ok.mp h
    exact bind_eq_ok.mpr ⟨some first, middle, optional_eq_some.mpr hfirst, h⟩

end Lists

/-! ### Names -/

variable {rest : List Char}

theorem Part.skipSpacing_source {p : Part} (h : p.Formed) (rest : List Char) :
    skipSpacing (p.source ++ rest) = p.source ++ rest := by
  obtain ⟨w, _ | _⟩ := p
  · exact skipSpacing_word h.1 rest
  · exact skipSpacing_cons (by decide) (by decide) _

theorem part_source {p : Part} (h : p.Formed) (hrest : rest.head?.any Text.isWordChar = false) :
    part (p.source ++ rest) = .ok p rest :=
  part_eq_ok.mpr ⟨Part.skipSpacing_source h rest, h, fun _ => hrest⟩

theorem part_misses {s : List Char} (hskip : skipSpacing s = s) (hbracket : s.head? ≠ some '[')
    (hname : Misses name s) : Misses part s :=
  bind_misses.mpr (.inr ⟨(), s, spacing_eq_ok.mpr hskip, orElse_misses.mpr
    ⟨bind_misses.mpr (.inl (bind_misses.mpr (.inl (char_misses.mpr hbracket)))),
      bind_misses.mpr (.inl hname)⟩⟩)

theorem skipSpacing_partsSource {names : List Part} (hne : names ≠ [])
    (hnames : ∀ p ∈ names, p.Formed) (rest : List Char) :
    skipSpacing (partsSource names ++ rest) = partsSource names ++ rest := by
  cases names with
  | nil => exact absurd rfl hne
  | cons p names =>
    rw [partsSource, intercalate_map_cons, List.append_assoc]
    exact Part.skipSpacing_source (hnames p List.mem_cons_self) _

/-- A dotted name is read back where no further part follows. -/
theorem parts_source {names : List Part} (hne : names ≠ []) (hnames : ∀ p ∈ names, p.Formed)
    (hrest : rest.head?.any Text.isWordChar = false) (hstop : Misses (char '.' *> part) rest) :
    parts (partsSource names ++ rest) = .ok names rest := by
  rw [parts, bind_eq_ok]
  refine ⟨(), _, rfl, ?_⟩
  rw [skipSpacing_partsSource hne hnames]
  obtain ⟨stop, rfl, h⟩ := separated1_source ['.'] (fun s => s.head?.any Text.isWordChar = false) Eq
    (by simp)
    (fun s => (by decide : Text.isWordChar '.' = false)) (fun s t h => Nat.le_of_eq (by rw [h]))
    (fun p hp rest hrest => ⟨rest, rfl, part_source (hnames p hp) hrest⟩)
    (by
      rintro p hp rest hrest s rfl
      exact ⟨rest, rfl, seqRight_eq_ok.mpr
        ⟨(), _, char_eq_ok.mpr rfl, part_source (hnames p hp) hrest⟩⟩)
    hne hrest (fun s hs => hs ▸ hstop)
  exact h

theorem Apart.misses_furtherPart (h : Apart rest) : Misses (char '.' *> part) rest :=
  seqRight_misses.mpr (.inl (char_misses.mpr (h.head?_ne (by decide))))

/-! ### Literals -/

variable {s : List Char}

theorem stringLiteral_misses {quote : Char} (h : s.head? ≠ some quote) :
    Misses (stringLiteral quote) s :=
  bind_misses.mpr (.inl (char_misses.mpr h))

theorem dateLiteral_misses (h : s.head? ≠ some '#') : Misses dateLiteral s :=
  bind_misses.mpr (.inl (char_misses.mpr h))

theorem numberLiteral_misses (h : s.head?.any Char.isDigit = false) : Misses numberLiteral s :=
  bind_misses.mpr (.inl (run1_misses.mpr h))

theorem numberLiteral_source {text : List Char} (h : IsNumber text) (hrest : Apart rest) :
    numberLiteral (text ++ rest) = .ok (.number (String.ofList text)) rest := by
  have hdigit : rest.head?.any Char.isDigit = false := hrest.head?_any (by decide)
  cases h with
  | whole hne hdigits =>
    refine bind_eq_ok.mpr ⟨text, rest, run1_eq_ok.mpr ⟨⟨rfl, hdigits, hdigit⟩, hne⟩,
      bind_eq_ok.mpr ⟨none, rest, optional_eq_none.mpr ⟨?_, rfl⟩, rfl⟩⟩
    exact seqRight_misses.mpr (.inl (char_misses.mpr (hrest.head?_ne (by decide))))
  | @fraction digits decimals hne hdigits hne' hdecimals =>
    rw [List.append_assoc]
    refine bind_eq_ok.mpr ⟨digits, '.' :: (decimals ++ rest),
      run1_eq_ok.mpr ⟨⟨rfl, hdigits, rfl⟩, hne⟩,
      bind_eq_ok.mpr ⟨some decimals, rest, optional_eq_some.mpr ?_, rfl⟩⟩
    exact seqRight_eq_ok.mpr
      ⟨(), _, char_eq_ok.mpr rfl, run1_eq_ok.mpr ⟨⟨rfl, hdecimals, hdigit⟩, hne'⟩⟩

theorem IsNumber.exists_cons {text : List Char} (h : IsNumber text) :
    ∃ c cs, text = c :: cs ∧ c.isDigit = true := by
  cases h with
  | @whole digits hne hall | @fraction digits _ hne hall =>
    obtain ⟨c, cs, rfl⟩ := List.exists_cons_of_ne_nil hne
    rw [List.all_cons, Bool.and_eq_true] at hall
    exact ⟨c, _, rfl, hall.1⟩

theorem head?_ne_of_wordStart {c : Char} (hs : s.head?.any Text.isWordStart = true)
    (hc : Text.isWordStart c = false) : s.head? ≠ some c := by
  intro h
  simp [h, hc] at hs

/-- The literals that are no words miss a word. -/
theorem literal_of_word {reader : Reader Literal} {value : Literal}
    (hs : s.head?.any Text.isWordStart = true) (h : reader s = .ok value rest) :
    (stringLiteral '\'' <|> stringLiteral '"' <|> dateLiteral <|> numberLiteral <|> reader) s =
      .ok value rest := by
  have hdigit : s.head?.any Char.isDigit = false := by
    cases hc : s.head? with
    | none => rfl
    | some c =>
      rw [hc, Option.any_some] at hs
      exact isDigit_eq_false_of_isWordStart hs
  exact orElse_eq_ok.mpr (.inr ⟨stringLiteral_misses (head?_ne_of_wordStart hs (by decide)),
    orElse_eq_ok.mpr (.inr ⟨stringLiteral_misses (head?_ne_of_wordStart hs (by decide)),
      orElse_eq_ok.mpr (.inr ⟨dateLiteral_misses (head?_ne_of_wordStart hs (by decide)),
        orElse_eq_ok.mpr (.inr ⟨numberLiteral_misses hdigit, h⟩)⟩)⟩)⟩)

/-- A literal is read back. -/
theorem literal_source {value : Literal} (h : value.Formed) (hrest : Apart rest) :
    literal (value.source ++ rest) = .ok (.literal value) rest := by
  have hword : rest.head?.any Text.isWordChar = false := hrest.head?_any (by decide)
  refine bind_eq_ok.mpr ⟨(), value.source ++ rest, ?_, bind_eq_ok.mpr ⟨value, rest, ?_, rfl⟩⟩
  · rw [spacing_eq_ok]
    cases value with
    | string value quote => rcases h.1 with rfl | rfl <;> rfl
    | number text =>
      obtain ⟨c, cs, hc, hdigit⟩ := IsNumber.exists_cons h
      rw [Literal.source, hc]
      exact skipSpacing_of_class (by decide) hdigit _
    | bool value => cases value <;> rfl
    | _ => rfl
  · cases value with
    | string value quote =>
      have hstring (hquote : rest.head? ≠ some quote) :
          stringLiteral quote (quote :: (value.toList ++ [quote]) ++ rest) =
            .ok (.string value quote) rest :=
        stringLiteral_eq_ok.mpr ⟨value.toList, by simp, by simp, h.2, hquote⟩
      rcases h.1 with rfl | rfl
      · exact orElse_eq_ok.mpr (.inl (hstring (hrest.head?_ne (by decide))))
      · exact orElse_eq_ok.mpr (.inr ⟨stringLiteral_misses (by simp [Literal.source]),
          orElse_eq_ok.mpr (.inl (hstring (hrest.head?_ne (by decide))))⟩)
    | date text =>
      refine orElse_eq_ok.mpr (.inr ⟨stringLiteral_misses (by simp [Literal.source]),
        orElse_eq_ok.mpr (.inr ⟨stringLiteral_misses (by simp [Literal.source]),
          orElse_eq_ok.mpr (.inl (dateLiteral_eq_ok.mpr ⟨' ' :: text.toList, ?_, ?_, ?_, ?_⟩))⟩)⟩)
      · rw [Text.trim_cons (by decide), h.2, String.ofList_toList]
      · simp [Literal.source]
      · simpa [isDated] using h.1
      · simp
    | number text =>
      obtain ⟨c, cs, hc, hdigit⟩ := IsNumber.exists_cons h
      have hne (d : Char) (hd : d.isDigit = false) :
          ((Literal.number text).source ++ rest).head? ≠ some d := by
        rw [Literal.source, hc]
        rintro ⟨⟩
        simp [hdigit] at hd
      have hnumber := numberLiteral_source h hrest
      rw [String.ofList_toList] at hnumber
      exact orElse_eq_ok.mpr (.inr ⟨stringLiteral_misses (hne _ (by decide)),
        orElse_eq_ok.mpr (.inr ⟨stringLiteral_misses (hne _ (by decide)),
          orElse_eq_ok.mpr (.inr ⟨dateLiteral_misses (hne _ (by decide)),
            orElse_eq_ok.mpr (.inl hnumber)⟩)⟩)⟩)
    | bool value =>
      cases value with
      | true =>
        refine literal_of_word rfl (orElse_eq_ok.mpr (.inl ?_))
        exact seqRight_eq_ok.mpr ⟨(), rest, keyword_source _ (by decide) hword, rfl⟩
      | false =>
        have hmiss := keyword_misses_word "TRUE" (w := "FALSE".toList) (by decide)
          (by decide) hword (by decide)
        refine literal_of_word rfl (orElse_eq_ok.mpr (.inr ⟨seqRight_misses.mpr (.inl hmiss),
          orElse_eq_ok.mpr (.inl ?_)⟩))
        exact seqRight_eq_ok.mpr ⟨(), rest, keyword_source _ (by decide) hword, rfl⟩
    | null =>
      have hmiss (word : String) (hsteady : isSteady word = true)
          (hne : "NULL".toList.map Char.toUpper ≠ word.toList) :=
        keyword_misses_word _ (w := "NULL".toList) hsteady (by decide) hword hne
      refine literal_of_word rfl (orElse_eq_ok.mpr (.inr
        ⟨seqRight_misses.mpr (.inl (hmiss "TRUE" (by decide) (by decide))),
          orElse_eq_ok.mpr (.inr
            ⟨seqRight_misses.mpr (.inl (hmiss "FALSE" (by decide) (by decide))), ?_⟩)⟩))
      exact seqRight_eq_ok.mpr ⟨(), rest, keyword_source _ (by decide) hword, rfl⟩

end JetSql.Grammar
