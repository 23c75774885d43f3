/-
What the target form of a pattern matches.

An element is written so that a target reads it back, if the escape character that the target goes
by suits it. The one that the clause names suits all elements; without a clause nothing was escaped,
and no escape character at all suits. A target that falls back on the backslash where no clause
names an escape character reads a plain backslash as one. Then the pattern it reads holds fewer
backslashes than were meant, and some text with too few of them matches.

* **`sourceMatches_iff_likeMatches`:** a target without an escape character of its own matches what
  the source matches.
* **`sourceMatches_iff_postgres`:** a target that falls back on the backslash does so exactly if
  there is a clause or no backslash.
-/

import JetSql.Proofs.Pattern.Source

namespace JetSql

namespace Pattern

variable {text subject : List Char} {pattern : Pattern} {escape : Option Char}

/-! ### Reading back what was written -/

/-- Under this escape character an element is read back as it is written. -/
def Suits (escape : Option Char) : Wildcard → Prop
  | .anyText => escape ≠ some '%'
  | .anyChar => escape ≠ some '_'
  | .exactly c => if isSpecial c = true then escape = some Pattern.escape else escape ≠ some c

theorem readLike?_writeElement {wildcard : Wildcard} (h : Suits escape wildcard)
    (text : List Char) :
    readLike? escape (writeElement wildcard ++ text) =
      (readLike? escape text).map (wildcard :: ·) := by
  cases wildcard with
  | anyText => exact readLike?_unescaped h text
  | anyChar => exact readLike?_unescaped h text
  | exactly c =>
    rw [Suits] at h
    rw [writeElement]
    split at h
    · rename_i hspecial
      rw [if_pos hspecial, h]
      exact readLike?_escaped ..
    · rename_i hspecial
      have hplain : c ≠ '%' ∧ c ≠ '_' := by
        constructor <;> rintro rfl <;> exact hspecial rfl
      rw [if_neg hspecial, List.singleton_append, readLike?_unescaped h, unescaped, if_neg hplain.1,
        if_neg hplain.2]

/-- **A pattern is read back as it was written.** -/
theorem readLike?_flatMap (h : ∀ wildcard ∈ pattern, Suits escape wildcard) :
    readLike? escape (pattern.flatMap writeElement) = some pattern := by
  induction pattern with
  | nil => rfl
  | cons wildcard pattern ih =>
    rw [List.forall_mem_cons] at h
    rw [List.flatMap_cons, readLike?_writeElement h.1, ih h.2, Option.map_some]

/-- The escape character that the clause names, if there is a clause. -/
def namedEscape (pattern : Pattern) : Option Char :=
  if needsEscape pattern then some Pattern.escape else none

theorem isSpecial_of_needsEscape {c : Char} (h : needsEscape pattern = false)
    (hmem : .exactly c ∈ pattern) : isSpecial c = false := by
  rw [needsEscape, List.any_eq_false] at h
  simpa using h (.exactly c) hmem

/-- What the clause names suits all elements. -/
theorem suits_escape (wildcard : Wildcard) : Suits (some Pattern.escape) wildcard := by
  cases wildcard with
  | anyText | anyChar => simp [Suits, Pattern.escape]
  | exactly c =>
    rw [Suits]
    split
    · rfl
    · rename_i hspecial
      rintro ⟨⟩
      exact hspecial rfl

/-- Where nothing was escaped, an escape character that does not stand in the pattern suits it. -/
theorem suits_of_needsEscape (h : needsEscape pattern = false)
    (hwild : escape ≠ some '%' ∧ escape ≠ some '_')
    (hmem : ∀ c, escape = some c → .exactly c ∉ pattern) :
    ∀ wildcard ∈ pattern, Suits escape wildcard := by
  intro wildcard hwildcard
  cases wildcard with
  | anyText => exact hwild.1
  | anyChar => exact hwild.2
  | exactly c =>
    rw [Suits, isSpecial_of_needsEscape h hwildcard]
    exact fun hescape => hmem c hescape hwildcard

/-- **A pattern is read back with the escape character that its clause names.** -/
theorem readLike?_namedEscape (pattern : Pattern) :
    readLike? (namedEscape pattern) (pattern.flatMap writeElement) = some pattern := by
  refine readLike?_flatMap ?_
  rw [namedEscape]
  split
  · exact fun wildcard _ => suits_escape wildcard
  · rename_i hneeds
    exact suits_of_needsEscape (by simpa using hneeds) (by simp) (by simp)

/-! ### The operand -/

theorem flatMap_writeElement_doubled (wildcard : Wildcard) :
    (doubled wildcard).flatMap writeElement = Text.double '\'' (writeElement wildcard) := by
  rw [doubled]
  split
  · rename_i hquote
    rw [hquote]
    rfl
  · rename_i hquote
    rw [List.flatMap_singleton]
    cases wildcard with
    | anyText | anyChar => rfl
    | exactly c =>
      have hc : c ≠ '\'' := fun heq => hquote (by rw [heq])
      rw [writeElement]
      split <;> simp [Text.double, hc, Pattern.escape]

theorem needsEscape_doubled (pattern : Pattern) :
    needsEscape (pattern.flatMap doubled) = needsEscape pattern := by
  rw [needsEscape, List.any_flatMap, needsEscape]
  congr 1
  funext wildcard
  rw [doubled]
  split
  · rename_i hquote
    rw [hquote]
    rfl
  · simp

theorem flatMap_doubled_writeElement (pattern : Pattern) :
    (pattern.flatMap doubled).flatMap writeElement =
      Text.double '\'' (pattern.flatMap writeElement) := by
  induction pattern with
  | nil => rfl
  | cons wildcard pattern ih =>
    rw [List.flatMap_cons, List.flatMap_append, ih, flatMap_writeElement_doubled, List.flatMap_cons,
      Text.double_append]

/-- The target form is the enclosed text of the pattern, and a clause if anything is escaped. -/
theorem toList_write (pattern : Pattern) :
    (write (pattern.flatMap doubled)).toList =
      Text.enclose '\'' (pattern.flatMap writeElement) ++
        if needsEscape pattern then " ESCAPE '!'".toList else [] := by
  have henclose (body : List Char) :
      ("'" ++ String.ofList (Text.double '\'' body) ++ "'").toList = Text.enclose '\'' body := by
    simp [Text.enclose]
  rw [write, flatMap_doubled_writeElement, needsEscape_doubled, String.toList_append, henclose]
  split <;> rfl

/-- **The target form is one operand: the text of the pattern, and the escape character if anything
is escaped.** -/
theorem readOperand?_write (pattern : Pattern) :
    readOperand? (write (pattern.flatMap doubled)).toList =
      some (pattern.flatMap writeElement, namedEscape pattern) := by
  rw [toList_write, namedEscape]
  split
  · exact readOperand?_enclose _ (by decide)
  · exact readOperand?_enclose _ (by decide)

/-! ### Backslashes -/

/-- A subject holds every character that its pattern stands for. -/
theorem count_le_of_matches (c : Char) (h : Matches pattern subject) :
    pattern.count (.exactly c) ≤ subject.count c := by
  induction h with
  | nil => exact Nat.le_refl _
  | @cons wildcard pattern part subject hpart _ ih =>
    have hfirst : [wildcard].count (.exactly c) ≤ part.count c := by
      cases hpart with
      | anyText | anyChar => exact Nat.zero_le _
      | exactly d => by_cases hd : d = c <;> simp [hd]
    rw [← List.singleton_append, List.count_append, List.count_append]
    exact Nat.add_le_add hfirst ih

/-- A text that an element matches: nothing if it may, or else a character. -/
def sampleElement : Wildcard → List Char
  | .anyText => []
  | .anyChar => ['x']
  | .exactly c => [c]

theorem matches_sample (pattern : Pattern) : Matches pattern (pattern.flatMap sampleElement) := by
  induction pattern with
  | nil => exact .nil
  | cons wildcard pattern ih =>
    refine .cons ?_ ih
    cases wildcard with
    | anyText => exact .anyText []
    | anyChar => exact .anyChar 'x'
    | exactly c => exact .exactly c

/-- A character that only its own element is spelled with stands as often as that element. -/
theorem count_flatMap {c : Char} {spell : Wildcard → List Char}
    (h : ∀ wildcard, (spell wildcard).count c = [wildcard].count (.exactly c)) (pattern : Pattern) :
    (pattern.flatMap spell).count c = pattern.count (.exactly c) := by
  induction pattern with
  | nil => rfl
  | cons wildcard pattern ih =>
    rw [List.flatMap_cons, List.count_append, h, ih, ← List.count_append, List.singleton_append]

theorem count_sample (pattern : Pattern) :
    (pattern.flatMap sampleElement).count '\\' = pattern.count (.exactly '\\') := by
  refine count_flatMap (fun wildcard => ?_) pattern
  cases wildcard with
  | anyText | anyChar => rfl
  | exactly c => by_cases hc : c = '\\' <;> simp [sampleElement, hc]

theorem count_writeElement (pattern : Pattern) :
    (pattern.flatMap writeElement).count '\\' = pattern.count (.exactly '\\') := by
  refine count_flatMap (fun wildcard => ?_) pattern
  cases wildcard with
  | anyText | anyChar => rfl
  | exactly c =>
    by_cases hc : c = '\\'
    · subst hc
      rfl
    · rw [writeElement]
      split <;> simp [hc, Pattern.escape]

theorem unescaped_ne {c d : Char} (h : d ≠ c) : unescaped d ≠ .exactly c := by
  rw [unescaped]
  split_ifs
  · exact nofun
  · exact nofun
  · exact fun heq => h (Wildcard.exactly.inj heq)

/-- A character that escapes stands twice where it is meant once. -/
theorem two_mul_count_le {c : Char} (h : readLike? (some c) text = some pattern) :
    2 * pattern.count (.exactly c) ≤ text.count c := by
  fun_induction readLike? (some c) text generalizing pattern with
  | case1 =>
    obtain rfl := Option.some.inj h
    exact Nat.le_refl _
  | case2 => cases h
  | case3 d hd =>
    have hne : d ≠ c := fun heq => hd (congrArg some heq.symm)
    obtain rfl := Option.some.inj h
    rw [List.count_cons_of_ne (unescaped_ne hne), List.count_nil]
    exact Nat.zero_le _
  | case4 d e text hd ih =>
    obtain rfl := Option.some.inj hd
    obtain ⟨rest, hrest, rfl⟩ := Option.map_eq_some_iff.mp h
    have hle := ih hrest
    rw [List.count_cons_self]
    by_cases he : e = c
    · subst he
      rw [List.count_cons_self, List.count_cons_self]
      omega
    · have hne : Wildcard.exactly e ≠ .exactly c := fun heq => he (Wildcard.exactly.inj heq)
      rw [List.count_cons_of_ne hne, List.count_cons_of_ne he]
      omega
  | case5 d e text hd ih =>
    have hne : d ≠ c := fun heq => hd (congrArg some heq.symm)
    obtain ⟨rest, hrest, rfl⟩ := Option.map_eq_some_iff.mp h
    rw [List.count_cons_of_ne (unescaped_ne hne), List.count_cons_of_ne hne]
    exact ih hrest

/-- A backslash is meant exactly where one stands. -/
theorem Denotes.mem_iff {held : Char → Prop} (h : Denotes held text pattern) :
    '\\' ∈ text ↔ .exactly '\\' ∈ pattern := by
  induction h with
  | nil => simp
  | anyText _ ih | anyChar _ ih | bracketed _ _ ih | plain _ _ ih => simp [ih]

/-- A pattern that was written without escaping and is read with the backslash as escape character
matches the same as before only if there is no backslash in it. -/
theorem not_mem_of_matches_iff
    (h : ∀ subject, Matches pattern subject ↔
      LikeMatches (some '\\') (pattern.flatMap writeElement) subject) :
    .exactly '\\' ∉ pattern := by
  obtain ⟨found, hfound, -⟩ := (h _).mp (matches_sample pattern)
  -- A text that matches what is read holds as many backslashes as are meant there: at most half.
  have hmatches : Matches pattern (found.flatMap sampleElement) :=
    (h _).mpr ⟨found, hfound, matches_sample found⟩
  have hmeant := count_le_of_matches '\\' hmatches
  have hhalf := two_mul_count_le hfound
  rw [count_sample] at hmeant
  rw [count_writeElement] at hhalf
  rw [← List.count_eq_zero]
  omega

end Pattern

section

open Pattern

variable {value text : String} {quote : Char}

/-- **A text matches the target form of a pattern literal under standard rules exactly if it matches
what the literal denotes in the source; and the target form is one string literal, and perhaps a
clause that names the escape character.** -/
theorem sourceMatches_iff_likeMatches (h : (Literal.string value quote).Formed)
    (htext : patternText value quote = .ok text) :
    ∃ written escape, readOperand? text.toList = some (written, escape) ∧
      (escape = none ∧ text.toList = Text.enclose '\'' written ∨
        escape = some '!' ∧ text.toList = Text.enclose '\'' written ++ " ESCAPE '!'".toList) ∧
      ∀ subject, SourceMatches (Text.undouble quote value.toList) subject ↔
        LikeMatches escape written subject := by
  obtain ⟨pattern, hpattern, rfl⟩ := (patternText_eq_ok h).mp htext
  refine ⟨_, _, readOperand?_write pattern, ?_, fun subject => ?_⟩
  · rw [toList_write, namedEscape]
    split
    · exact .inr ⟨rfl, rfl⟩
    · exact .inl ⟨rfl, List.append_nil _⟩
  · rw [(hpattern.mono fun _ => And.left).sourceMatches_iff,
      likeMatches_iff (readLike?_namedEscape pattern)]

/-- A plain percent sign, a star in brackets and a doubled quote. -/
theorem sourceMatches_iff_likeMatches_escaped :
    (Literal.string "5%[*]''?*" '\'').Formed ∧
      patternText "5%[*]''?*" '\'' = .ok "'5!%*''_%' ESCAPE '!'" ∧
      ∃ written escape, readOperand? "'5!%*''_%' ESCAPE '!'".toList = some (written, escape) ∧
        (escape = none ∧ "'5!%*''_%' ESCAPE '!'".toList = Text.enclose '\'' written ∨
          escape = some '!' ∧ "'5!%*''_%' ESCAPE '!'".toList =
            Text.enclose '\'' written ++ " ESCAPE '!'".toList) ∧
        ∀ subject, SourceMatches (Text.undouble '\'' "5%[*]''?*".toList) subject ↔
          LikeMatches escape written subject := by
  have hformed : (Literal.string "5%[*]''?*" '\'').Formed := ⟨.inl rfl, by decide⟩
  have htext : patternText "5%[*]''?*" '\'' = .ok "'5!%*''_%' ESCAPE '!'" := by decide
  exact ⟨hformed, htext, sourceMatches_iff_likeMatches hformed htext⟩

/-- **Where a target falls back on the backslash if no clause names an escape character, the target
form of a pattern literal matches what the literal denotes in the source exactly if there is a
clause or the literal denotes no backslash.** -/
theorem sourceMatches_iff_postgres (h : (Literal.string value quote).Formed)
    (htext : patternText value quote = .ok text) :
    ∃ written escape, readOperand? text.toList = some (written, escape) ∧
      ((∀ subject, SourceMatches (Text.undouble quote value.toList) subject ↔
          LikeMatches (some (escape.getD '\\')) written subject) ↔
        escape = some '!' ∨ '\\' ∉ Text.undouble quote value.toList) := by
  obtain ⟨pattern, hpattern, rfl⟩ := (patternText_eq_ok h).mp htext
  refine ⟨_, _, readOperand?_write pattern, ?_⟩
  simp only [(hpattern.mono fun _ => And.left).sourceMatches_iff, hpattern.mem_iff]
  by_cases hneeds : pattern.needsEscape = true
  · have hread := readLike?_namedEscape pattern
    rw [namedEscape, if_pos hneeds] at hread ⊢
    exact iff_of_true (fun subject => (likeMatches_iff hread).symm) (.inl rfl)
  · rw [namedEscape, if_neg hneeds]
    constructor
    · exact fun hmatches => .inr (not_mem_of_matches_iff hmatches)
    · rintro (hescape | hmem) subject
      · cases hescape
      · have hsuits := suits_of_needsEscape (by simpa using hneeds)
          (by decide : some '\\' ≠ some '%' ∧ some '\\' ≠ some '_') (by rintro c ⟨⟩; exact hmem)
        exact (likeMatches_iff (readLike?_flatMap hsuits)).symm

/-- A plain underline brings a clause, which keeps the backslash plain. -/
theorem sourceMatches_iff_postgres_clause :
    (Literal.string "a\\b_" '\'').Formed ∧
      patternText "a\\b_" '\'' = .ok "'a\\b!_' ESCAPE '!'" ∧
      ∃ written escape, readOperand? "'a\\b!_' ESCAPE '!'".toList = some (written, escape) ∧
        ((∀ subject, SourceMatches (Text.undouble '\'' "a\\b_".toList) subject ↔
            LikeMatches (some (escape.getD '\\')) written subject) ↔
          escape = some '!' ∨ '\\' ∉ Text.undouble '\'' "a\\b_".toList) := by
  have hformed : (Literal.string "a\\b_" '\'').Formed := ⟨.inl rfl, by decide⟩
  have htext : patternText "a\\b_" '\'' = .ok "'a\\b!_' ESCAPE '!'" := by decide
  exact ⟨hformed, htext, sourceMatches_iff_postgres hformed htext⟩

/-- Without a clause a backslash escapes what stands after it, and a text without it matches. -/
theorem patternText_plain_backslash :
    (Literal.string "a\\b" '\'').Formed ∧ patternText "a\\b" '\'' = .ok "'a\\b'" ∧
      readOperand? "'a\\b'".toList = some ("a\\b".toList, none) ∧
      ¬SourceMatches (Text.undouble '\'' "a\\b".toList) "ab".toList ∧
      LikeMatches (some '\\') "a\\b".toList "ab".toList := by
  have hdenotes : Denotes (· ≠ ']') (Text.undouble '\'' "a\\b".toList)
      [.exactly 'a', .exactly '\\', .exactly 'b'] :=
    .plain (by decide) (.plain (by decide) (.plain (by decide) .nil))
  have hread : readLike? (some '\\') "a\\b".toList = some [.exactly 'a', .exactly 'b'] := by decide
  refine ⟨⟨.inl rfl, by decide⟩, by decide, by decide, ?_, ?_⟩
  · rw [hdenotes.sourceMatches_iff]
    exact fun hmatches => absurd (count_le_of_matches '\\' hmatches) (by decide)
  · rw [likeMatches_iff hread]
    exact matches_sample [.exactly 'a', .exactly 'b']

end

end JetSql
