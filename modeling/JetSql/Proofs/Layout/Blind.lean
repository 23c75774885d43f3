/-
Readers that do not see how a text is laid out.

A reader is blind if it comes to the same on two texts that are the same but for their layout: to
the same value, with texts left that are again the same but for their layout, or to the same error;
where it misses on one it misses on the other, though perhaps at another place and with another
complaint. Every combinator hands this on, and so it is enough to look at the readers of single
tokens.

A minus sign alone is not read blindly, since it may open a comment; after spacing it is.

* **`Reader.Blind.bind`, `Reader.Blind.orElse`, `Reader.Blind.separated1`, …:** the combinators.
* **`blind_keyword`, `blind_name`, `blind_literal`, …:** the tokens.
-/

import JetSql.Proofs.Complete.Front
import JetSql.Proofs.Layout.Relaid

namespace JetSql.Grammar

open Reader

/-- Two texts without carriage returns that are the same but for their layout. -/
structure Alike (s s' : List Char) : Prop where
  relaid : Relaid s s'
  returns : '\r' ∉ s

/-- The same value or error, or no value, from two texts that are the same but for their layout. -/
inductive Outcome.Agrees {α : Type} : Outcome α → Outcome α → Prop where
  | ok (value : α) {rest rest' : List Char} :
      Alike rest rest' → Agrees (.ok value rest) (.ok value rest')
  | miss {rest rest' : List Char} {expected expected' : Option Expectation} :
      Agrees (.miss rest expected) (.miss rest' expected')
  | halt (error : Error) : Agrees (.halt error) (.halt error)

/-- A reader that comes to the same however the text is laid out. -/
def Reader.Blind {α : Type} (reader : Reader α) : Prop :=
  ∀ ⦃s s' : List Char⦄, Alike s s' → (reader s).Agrees (reader s')

variable {α β : Type} {s s' : List Char}

theorem agrees_of_misses {reader : Reader α} (h : reader.Misses s) (h' : reader.Misses s') :
    (reader s).Agrees (reader s') := by
  obtain ⟨left, expected, h⟩ := h
  obtain ⟨left', expected', h'⟩ := h'
  rw [h, h']
  exact .miss

theorem agrees_of_ok {reader : Reader α} {value : α} {rest rest' : List Char}
    (h : reader s = .ok value rest) (h' : reader s' = .ok value rest') (hrest : Alike rest rest') :
    (reader s).Agrees (reader s') := by
  rw [h, h']
  exact .ok value hrest

/-- A reader comes to the same on the same text. -/
theorem agrees_self {reader : Reader α} (hreader : reader.Keeps) (hs : '\r' ∉ s) :
    (reader s).Agrees (reader s) := by
  cases hread : reader s with
  | ok value rest =>
    exact .ok value ⟨.kept rest, fun hmem => hs ((hreader.suffix hread).subset hmem)⟩
  | miss => exact .miss
  | halt error => exact .halt error

/-! ### Combinators -/

section Combinators

variable {reader : Reader α}

theorem blind_pure (value : α) : Blind (pure value) :=
  fun _ _ h => .ok value h

theorem blind_halt (error : Error) : Blind (Reader.halt error : Reader α) :=
  fun _ _ _ => .halt error

/-- One reading after another, if the second one agrees wherever the first one comes to. -/
theorem agrees_bind {reader' : Reader α} {next next' : α → Reader β}
    (hreader : (reader s).Agrees (reader' s'))
    (hnext : ∀ value rest rest', reader s = .ok value rest → reader' s' = .ok value rest' →
      Alike rest rest' → (next value rest).Agrees (next' value rest')) :
    ((reader >>= next) s).Agrees ((reader' >>= next') s') := by
  rw [bind_apply, bind_apply]
  generalize reader s = outcome at hreader hnext
  generalize reader' s' = outcome' at hreader hnext
  cases hreader with
  | ok value h => exact hnext value _ _ rfl rfl h
  | miss => exact .miss
  | halt error => exact .halt error

theorem Reader.Blind.bind {next : α → Reader β} (hreader : reader.Blind)
    (hnext : ∀ value, (next value).Blind) : Blind (reader >>= next) :=
  fun _ _ h => agrees_bind (hreader h) fun value _ _ _ _ hrest => hnext value hrest

theorem Reader.Blind.seqRight {second : Reader β} (hreader : reader.Blind)
    (hsecond : second.Blind) : Blind (reader *> second) := by
  rw [seqRight_eq_bind]
  exact hreader.bind fun _ => hsecond

/-- A second attempt after a miss on both sides. -/
theorem Outcome.Agrees.afterMiss {outcome outcome' : Outcome α} (h : outcome.Agrees outcome')
    (rest rest' : List Char) (expected expected' : Option Expectation) :
    (outcome.afterMiss rest expected).Agrees (outcome'.afterMiss rest' expected') := by
  cases h with
  | ok value hrest => exact .ok value hrest
  | halt error => exact .halt error
  | miss =>
    simp only [Outcome.afterMiss]
    split <;> split <;> exact .miss

theorem Reader.Blind.orElse {second : Reader α} (hreader : reader.Blind)
    (hsecond : second.Blind) : Blind (reader <|> second) := by
  intro s s' h
  have hfirst := hreader h
  change (Reader.orElse reader (fun _ => second) s).Agrees
    (Reader.orElse reader (fun _ => second) s')
  rw [Reader.orElse, Reader.orElse]
  generalize reader s = outcome at hfirst
  generalize reader s' = outcome' at hfirst
  cases hfirst with
  | ok value hrest => exact .ok value hrest
  | halt error => exact .halt error
  | miss => exact (hsecond h).afterMiss ..

/-- Where nothing is found, the texts are left as they are. -/
theorem agrees_optional (h : Alike s s') (hreader : (reader s).Agrees (reader s')) :
    (Reader.optional reader s).Agrees (Reader.optional reader s') := by
  unfold Reader.optional
  generalize reader s = outcome at hreader ⊢
  generalize reader s' = outcome' at hreader ⊢
  cases hreader with
  | ok value hrest => exact .ok (some value) hrest
  | miss => exact .ok none h
  | halt error => exact .halt error

theorem Reader.Blind.optional (hreader : reader.Blind) : Blind (Reader.optional reader) :=
  fun _ _ h => agrees_optional h (hreader h)

theorem Reader.Blind.expecting (hreader : reader.Blind) (expectation : Expectation) :
    Blind (Reader.expecting expectation reader) := by
  intro s s' h
  have hfirst := hreader h
  unfold Reader.expecting
  generalize reader s = outcome at hfirst ⊢
  generalize reader s' = outcome' at hfirst ⊢
  cases hfirst with
  | ok value hrest => exact .ok value hrest
  | @miss _ _ expected expected' => cases expected <;> cases expected' <;> exact .miss
  | halt error => exact .halt error

theorem agrees_satisfying (h : (reader s).Agrees (reader s')) (test : α → Bool) :
    (Reader.satisfying reader test s).Agrees (Reader.satisfying reader test s') := by
  unfold Reader.satisfying
  generalize reader s = outcome at h ⊢
  generalize reader s' = outcome' at h ⊢
  cases h with
  | ok value hrest =>
    by_cases htest : test value = true
    · simp only [htest, if_true]
      exact .ok value hrest
    · simp only [htest, Bool.false_eq_true, if_false]
      exact .miss
  | miss => exact .miss
  | halt error => exact .halt error

theorem Reader.Blind.satisfying (hreader : reader.Blind) (test : α → Bool) :
    Blind (Reader.satisfying reader test) :=
  fun _ _ h => agrees_satisfying (hreader h) test

theorem Reader.Blind.firstOf {readers : List (Reader α)} (h : ∀ reader ∈ readers, reader.Blind) :
    Blind (Reader.firstOf readers) := by
  intro s s' hs
  induction readers with
  | nil => exact .ok none hs
  | cons reader readers ih =>
    rw [List.forall_mem_cons] at h
    have hfirst := h.1 hs
    rw [firstOf_cons, firstOf_cons]
    generalize reader s = outcome at hfirst ⊢
    generalize reader s' = outcome' at hfirst ⊢
    cases hfirst with
    | ok value hrest => exact .ok (some value) hrest
    | miss => exact ih h.2
    | halt error => exact .halt error

/-! ### Lists -/

/-- What separates the items of a list: nothing comes of it without a character that is read. -/
structure Reader.Separates (separator : Reader Unit) : Prop where
  blind : separator.Blind
  shorter : ∀ ⦃s rest⦄, separator s = .ok () rest → rest.length < s.length
  misses : separator.Misses []

variable {separator : Reader Unit}

/-- An item after its separator leaves less than there was. -/
theorem Reader.Separates.length_lt (hseparator : separator.Separates) (hitem : reader.Keeps)
    {value : α} {rest : List Char} (h : (separator *> reader) s = .ok value rest) : rest.length < s.length := by
  obtain ⟨⟨⟩, middle, hsep, hvalue⟩ := seqRight_eq_ok.mp h
  exact Nat.lt_of_le_of_lt (hitem.length_le hvalue) (hseparator.shorter hsep)

/-- Further items are found alike. They are counted by the length of the text, which the layout
changes, but neither count is ever spent. -/
theorem agrees_furtherItems (hseparator : separator.Separates) (hblind : reader.Blind)
    (hkeeps : reader.Keeps) {n n' : Nat} (h : Alike s s') (hn : s.length ≤ n)
    (hn' : s'.length ≤ n') :
    (furtherItems separator reader n s).Agrees (furtherItems separator reader n' s') := by
  have hnone (n : Nat) : furtherItems separator reader n [] = .ok [] [] := by
    cases n with
    | zero => rfl
    | succ n =>
      have hmiss : Reader.optional (separator *> reader) [] = .ok none [] :=
        optional_eq_none.mpr ⟨seqRight_misses.mpr (.inl hseparator.misses), rfl⟩
      exact bind_eq_ok.mpr ⟨none, [], hmiss, rfl⟩
  induction n generalizing n' s s' with
  | zero =>
    obtain rfl := List.length_eq_zero_iff.mp (Nat.le_zero.mp hn)
    obtain rfl := h.relaid.eq_nil_iff.mpr rfl
    rw [hnone, hnone]
    exact .ok [] h
  | succ n ih =>
    cases n' with
    | zero =>
      obtain rfl := List.length_eq_zero_iff.mp (Nat.le_zero.mp hn')
      obtain rfl := h.relaid.eq_nil_iff.mp rfl
      rw [hnone, hnone]
      exact .ok [] h
    | succ n' =>
      refine agrees_bind ((hseparator.blind.seqRight hblind).optional h) ?_
      intro found rest rest' hfound hfound' hrest
      cases found with
      | none => exact .ok [] hrest
      | some value =>
        have hlt := hseparator.length_lt hkeeps (optional_eq_some.mp hfound)
        have hlt' := hseparator.length_lt hkeeps (optional_eq_some.mp hfound')
        exact agrees_bind (ih hrest (by omega) (by omega)) fun values _ _ _ _ hrest => .ok _ hrest

theorem Reader.Blind.separated1 (hblind : reader.Blind) (hkeeps : reader.Keeps)
    (hseparator : separator.Separates) : Blind (separated1 separator reader) :=
  hblind.bind fun _ _ _ h =>
    agrees_bind (agrees_furtherItems hseparator hblind hkeeps h (Nat.le_refl _) (Nat.le_refl _))
      fun _ _ _ _ _ hrest => .ok _ hrest

theorem Reader.Blind.separated0 (hblind : reader.Blind) (hkeeps : reader.Keeps)
    (hseparator : separator.Separates) : Blind (separated0 separator reader) := by
  refine hblind.optional.bind fun found => ?_
  cases found with
  | none => exact blind_pure _
  | some value =>
    exact fun _ _ h =>
      agrees_bind (agrees_furtherItems hseparator hblind hkeeps h (Nat.le_refl _) (Nat.le_refl _))
        fun _ _ _ _ _ hrest => .ok _ hrest

end Combinators

/-! ### Spacing, marks and digits -/

theorem Alike.skipSpacing (h : Alike s s') : Alike (skipSpacing s) (skipSpacing s') :=
  ⟨h.relaid.skipSpacing, fun hmem => h.returns ((skip_suffix false s).subset hmem)⟩

theorem blind_spacing : Blind spacing :=
  fun _ _ h => .ok () h.skipSpacing

theorem Alike.tight_of_spacing {rest : List Char} (h : Alike s s')
    (hskip : spacing s = .ok () rest) : tight rest = true :=
  spacing_eq_ok.mp hskip ▸ tight_skipSpacing h.returns

/-- A digit or a mark comes first in both texts or in neither. -/
theorem Alike.uncons {c : Char} (h : Alike s s') (hc : isLone c = true)
    (hminus : c = '-' → tight s = true) :
    (∃ t t', s = c :: t ∧ s' = c :: t' ∧ Alike t t') ∨ s.head? ≠ some c ∧ s'.head? ≠ some c := by
  refine (h.relaid.uncons hc hminus).imp_left fun ⟨t, t', hs, hs', ht⟩ => ⟨t, t', hs, hs', ht, ?_⟩
  exact fun hmem => h.returns (hs ▸ List.mem_cons_of_mem c hmem)

theorem agrees_char {c : Char} (h : Alike s s') (hc : isLone c = true)
    (hminus : c = '-' → tight s = true) : (char c s).Agrees (char c s') := by
  rcases h.uncons hc hminus with ⟨t, t', rfl, rfl, ht⟩ | ⟨hs, hs'⟩
  · have hread (t : List Char) : char c (c :: t) = .ok () t := char_eq_ok.mpr rfl
    exact agrees_of_ok (hread t) (hread t') ht
  · exact agrees_of_misses (char_misses.mpr hs) (char_misses.mpr hs')

theorem blind_char {c : Char} (hc : isLone c = true) (hminus : c ≠ '-') : Blind (char c) :=
  fun _ _ h => agrees_char h hc fun heq => absurd heq hminus

/-- A fixed text of marks, of which only the first may be a minus sign, comes first in both texts or
in neither. -/
theorem Alike.dropText? {marks : List Char} (h : Alike s s') (hmarks : marks.all isLone = true)
    (hminus : marks.head? = some '-' → tight s = true) (htail : '-' ∉ marks.tail) :
    dropText? marks s = none ∧ dropText? marks s' = none ∨
      ∃ rest rest', dropText? marks s = some rest ∧ dropText? marks s' = some rest' ∧
        Alike rest rest' := by
  induction marks generalizing s s' with
  | nil => exact .inr ⟨s, s', rfl, rfl, h⟩
  | cons c marks ih =>
    rw [List.all_cons, Bool.and_eq_true] at hmarks
    have hnone {s : List Char} (hs : s.head? ≠ some c) :
        Reader.dropText? (c :: marks) s = none := by
      cases s with
      | nil => rfl
      | cons d s => exact if_neg (by simpa using hs)
    have htight : c = '-' → tight s = true := fun hc => hminus (by rw [hc]; rfl)
    rcases h.uncons hmarks.1 htight with ⟨t, t', rfl, rfl, ht⟩ | ⟨hs, hs'⟩
    · simp only [Reader.dropText?, if_true]
      refine ih ht hmarks.2 (fun hhead => ?_) fun hmem => htail (List.mem_of_mem_tail hmem)
      exact absurd (List.mem_of_mem_head? hhead) htail
    · exact .inl ⟨hnone hs, hnone hs'⟩

theorem agrees_exactly {fixed : String} (h : Alike s s') (hfixed : fixed.toList.all isLone = true)
    (hminus : fixed.toList.head? = some '-' → tight s = true) (htail : '-' ∉ fixed.toList.tail) :
    (exactly fixed s).Agrees (exactly fixed s') := by
  rw [exactly, exactly]
  rcases h.dropText? hfixed hminus htail with ⟨hs, hs'⟩ | ⟨rest, rest', hs, hs', hrest⟩
  · rw [hs, hs']
    exact .miss
  · rw [hs, hs']
    exact .ok () hrest

theorem blind_exactly {fixed : String} (hfixed : fixed.toList.all isLone = true)
    (hminus : '-' ∉ fixed.toList) : Blind (exactly fixed) :=
  fun _ _ h => agrees_exactly h hfixed (fun hhead => absurd (List.mem_of_mem_head? hhead) hminus)
    fun hmem => hminus (List.mem_of_mem_tail hmem)

/-- After spacing a minus sign opens no comment. -/
theorem blind_symbol {mark : String}
    (hmark : mark.toList.all isLone = true ∧ '-' ∉ mark.toList.tail) : Blind (symbol mark) := by
  intro s s' h
  exact agrees_bind (blind_spacing h) fun _ _ _ hskip _ hrest =>
    agrees_exactly hrest hmark.1 (fun _ => h.tight_of_spacing hskip) hmark.2

/-- Characters of a class of digits and marks stand in both texts alike. -/
theorem Alike.takeWhile {p : Char → Bool} (h : Alike s s')
    (hp : ∀ c, p c = true → isLone c = true ∧ c ≠ '-') :
    s'.takeWhile p = s.takeWhile p ∧ Alike (s.dropWhile p) (s'.dropWhile p) := by
  induction s generalizing s' with
  | nil =>
    obtain rfl := h.relaid.eq_nil_iff.mpr rfl
    exact ⟨rfl, h⟩
  | cons c t ih =>
    by_cases hc : p c = true
    · rcases h.uncons (hp c hc).1 fun heq => absurd heq (hp c hc).2 with
        ⟨u, u', heq, rfl, hu⟩ | ⟨hs, -⟩
      · obtain ⟨-, rfl⟩ := List.cons.inj heq
        obtain ⟨htake, hdrop⟩ := ih hu
        simpa [hc, htake] using hdrop
      · exact absurd rfl hs
    · cases s' with
      | nil => exact absurd (h.relaid.eq_nil_iff.mp rfl) (List.cons_ne_nil c t)
      | cons d t' =>
        by_cases hd : p d = true
        · rcases h.uncons (hp d hd).1 fun heq => absurd heq (hp d hd).2 with
            ⟨u, u', heq, -, -⟩ | ⟨-, hs'⟩
          · obtain ⟨rfl, -⟩ := List.cons.inj heq
            exact absurd hd hc
          · exact absurd rfl hs'
        · simpa [hc, hd] using h

theorem blind_run1 {p : Char → Bool} (hp : ∀ c, p c = true → isLone c = true ∧ c ≠ '-') :
    Blind (run1 p) := by
  intro s s' h
  obtain ⟨htake, hdrop⟩ := h.takeWhile hp
  rw [run1, run1, htake]
  cases s.takeWhile p with
  | nil => exact .miss
  | cons c cs => exact .ok _ hdrop

theorem isLone_of_isDigit {c : Char} (h : c.isDigit = true) : isLone c = true ∧ c ≠ '-' := by
  obtain ⟨hspacing, hminus⟩ := isSpacing_eq_false_of_class (by decide) h
  have hstart : Text.isWordStart c = false := by
    rw [← Bool.not_eq_true]
    intro hstart
    simp [isDigit_eq_false_of_isWordStart hstart] at h
  have hopens : "'\"#[".toList.contains c = false := by
    rw [← Bool.not_eq_true, List.contains_iff_mem]
    intro hmem
    have hdigit : c.isDigit = false := eq_false_of_mem (by decide) hmem
    simp [hdigit] at h
  exact ⟨by simp only [isLone, hspacing, hstart, hopens, Bool.or_self, Bool.not_false], hminus⟩

theorem blind_endOfText : Blind endOfText := by
  intro s s' h
  cases s with
  | nil =>
    obtain rfl := h.relaid.eq_nil_iff.mpr rfl
    exact .ok () h
  | cons c s =>
    cases s' with
    | nil => exact absurd (h.relaid.eq_nil_iff.mp rfl) (List.cons_ne_nil c s)
    | cons c' s' => exact .miss

/-! ### Words -/

theorem Alike.unword (h : Alike s s') (hs : s.head?.any Text.isWordStart = true) :
    ∃ w w' t t', s = w ++ t ∧ s' = w' ++ t' ∧ Text.isWord w = true ∧
      t.head?.any Text.isWordChar = false ∧ Recased w w' ∧ Alike t t' := by
  obtain ⟨w, w', t, t', rfl, rfl, hw, hstop, hcase, ht⟩ := h.relaid.unword hs
  exact ⟨w, w', t, t', rfl, rfl, hw, hstop, hcase, ht,
    fun hmem => h.returns (List.mem_append_right w hmem)⟩

/-- Both texts begin with a word or neither does. -/
theorem Alike.isWordStart_eq (h : Alike s s') :
    s'.head?.any Text.isWordStart = s.head?.any Text.isWordStart :=
  h.relaid.head?_any true (by decide) fun _ => id

/-- A word that stops in one text stops in the other. -/
theorem Alike.isWordChar_eq (h : Alike s s') :
    s'.head?.any Text.isWordChar = s.head?.any Text.isWordChar :=
  h.relaid.head?_any true (by decide) fun _ => Text.isWordChar_of_isWordStart

/-- The Kelvin sign has no other case in ASCII. -/
theorem toUpper_eq_kelvinSign {c : Char} : c.toUpper = kelvinSign ↔ c = kelvinSign := by
  have hsign : kelvinSign.toNat = 0x212A := rfl
  rw [← Char.toNat_inj, ← Char.toNat_inj, Text.toNat_toUpper, hsign]
  split <;> omega

theorem agreesInAnyCase_congr (fixed : List Char) {w w' : List Char}
    (h : w'.map Char.toUpper = w.map Char.toUpper) :
    agreesInAnyCase fixed w' = agreesInAnyCase fixed w := by
  induction w generalizing w' fixed with
  | nil => rw [List.map_eq_nil_iff.mp h]
  | cons d w ih =>
    obtain ⟨d', w', rfl, hd, hw⟩ := List.map_eq_cons_iff.mp h
    have hsign : (d' == kelvinSign) = (d == kelvinSign) := by
      rw [Bool.eq_iff_iff, beq_iff_eq, beq_iff_eq, ← toUpper_eq_kelvinSign, hd,
        toUpper_eq_kelvinSign]
    cases fixed with
    | nil => simp [agreesInAnyCase]
    | cons c fixed => rw [agreesInAnyCase, agreesInAnyCase, hd, hsign, ih fixed hw]

/-- Whether a keyword ends inside a character is the same in any case of ASCII. -/
theorem splitsCharacter_congr (fixed : List Char) {w w' : List Char}
    (h : w'.map Char.toUpper = w.map Char.toUpper) :
    splitsCharacter fixed w' = splitsCharacter fixed w := by
  have hmem (w : List Char) : (w.take fixed.length).contains kelvinSign =
      ((w.map Char.toUpper).take fixed.length).contains kelvinSign := by
    rw [← List.map_take, Bool.eq_iff_iff, List.contains_iff_mem, List.contains_iff_mem, List.mem_map]
    simp only [toUpper_eq_kelvinSign, exists_eq_right]
  rw [splitsCharacter, splitsCharacter, agreesInAnyCase_congr fixed h, hmem, hmem w, h]

/-- So it is the same of a word and what follows it, however they are laid out. -/
theorem splitsCharacter_append_congr {fixed w w' t t' : List Char}
    (hfixed : fixed.all Char.isUpper = true) (hstop : t.head?.any Text.isWordChar = false)
    (hstop' : t'.head?.any Text.isWordChar = false) (hw : w'.map Char.toUpper = w.map Char.toUpper)
    (ht : t' = [] ↔ t = []) :
    splitsCharacter fixed (w' ++ t') = splitsCharacter fixed (w ++ t) := by
  have hlength : w'.length = w.length := by
    rw [← List.length_map Char.toUpper, hw, List.length_map]
  have hends : t'.isEmpty = t.isEmpty := by
    rw [Bool.eq_iff_iff, List.isEmpty_iff, List.isEmpty_iff, ht]
  rw [splitsCharacter_append hfixed hstop, splitsCharacter_append hfixed hstop', hlength, hends,
    splitsCharacter_congr _ hw]

/-- Where a keyword is not read, looking for it aborts on both texts or misses on both. -/
theorem agrees_keyword_of_not_ok {word : String} (hword : word.toList.all Char.isUpper = true)
    (hsplits : splitsCharacter word.toList (skipSpacing s') =
      splitsCharacter word.toList (skipSpacing s))
    (hs : ∀ value rest, keyword word s ≠ .ok value rest)
    (hs' : ∀ value rest, keyword word s' ≠ .ok value rest) :
    (keyword word s).Agrees (keyword word s') := by
  cases hsplit : splitsCharacter word.toList (skipSpacing s) with
  | true =>
    rw [keyword_eq_halt hword hsplit, keyword_eq_halt hword (hsplits.trans hsplit)]
    exact .halt .aborted
  | false =>
    exact agrees_of_misses (misses_of_not_ok (keyword_ne_halt hsplit) hs)
      (misses_of_not_ok (keyword_ne_halt (hsplits.trans hsplit)) hs')

theorem blind_keyword {word : String}
    (hword : word.toList ≠ [] ∧ word.toList.all Char.isUpper = true) : Blind (keyword word) := by
  intro s s' h
  have h := h.skipSpacing
  by_cases hs : (skipSpacing s).head?.any Text.isWordStart = true
  · obtain ⟨w, w', t, t', heqs, heqs', hw, hstop, hcase, ht⟩ := h.unword hs
    rw [← keyword_skipSpacing word s, ← keyword_skipSpacing word s', heqs, heqs']
    have hw' := hcase.isWord hw
    have hstop' := ht.isWordChar_eq.trans hstop
    by_cases heq : w.map Char.toUpper = word.toList
    · have heq' := hcase.map_toUpper.trans heq
      have hread : keyword word (w ++ t) = .ok () t :=
        keyword_eq_ok.mpr ⟨⟨w, skipSpacing_word hw t, heq⟩, hstop⟩
      have hread' : keyword word (w' ++ t') = .ok () t' :=
        keyword_eq_ok.mpr ⟨⟨w', skipSpacing_word hw' t', heq'⟩, hstop'⟩
      exact agrees_of_ok hread hread' ht
    · have hsplits := splitsCharacter_append_congr hword.2 hstop hstop' hcase.map_toUpper
        ht.relaid.eq_nil_iff
      rw [← skipSpacing_word hw t, ← skipSpacing_word hw' t'] at hsplits
      refine agrees_keyword_of_not_ok hword.2 hsplits (fun _ rest hread => heq ?_)
        fun _ rest hread => heq ?_
      · exact map_toUpper_of_keyword hword.2 hw hstop hread
      · exact hcase.map_toUpper.symm.trans (map_toUpper_of_keyword hword.2 hw' hstop' hread)
  · rw [Bool.not_eq_true] at hs
    exact agrees_of_misses (keyword_misses_of_no_word hword hs)
      (keyword_misses_of_no_word hword (h.isWordStart_eq.trans hs))

/-- A word that stands for a value. -/
theorem blind_word {word : String} (value : α)
    (hword : word.toList ≠ [] ∧ word.toList.all Char.isUpper = true) :
    Blind (keyword word *> pure value) :=
  (blind_keyword hword).seqRight (blind_pure value)

theorem blind_name : Blind name := by
  intro s s' h
  by_cases hs : s.head?.any Text.isWordStart = true
  · obtain ⟨w, w', t, t', rfl, rfl, hw, hstop, hcase, ht⟩ := h.unword hs
    have hstop' := ht.isWordChar_eq.trans hstop
    have hword : word (w ++ t) = .ok (String.ofList w) t :=
      word_eq_ok.mpr ⟨by simp, by simpa using hw, hstop⟩
    have hword' : word (w' ++ t') = .ok (String.ofList w') t' :=
      word_eq_ok.mpr ⟨by simp, by simpa using hcase.isWord hw, hstop'⟩
    rcases hcase with rfl | ⟨hreserved, hupper⟩
    · exact agrees_satisfying (agrees_of_ok hword hword' ht) _
    · have hreserved' := (isReserved_congr hupper).trans hreserved
      exact agrees_of_misses (satisfying_misses.mpr (.inr ⟨_, _, hword, by simp [hreserved]⟩))
        (satisfying_misses.mpr (.inr ⟨_, _, hword', by simp [hreserved']⟩))
  · rw [Bool.not_eq_true] at hs
    have hs' := h.isWordStart_eq.trans hs
    exact agrees_of_misses (satisfying_misses.mpr (.inl (word_misses.mpr hs)))
      (satisfying_misses.mpr (.inl (word_misses.mpr hs')))

/-! ### Literals and names in brackets -/

/-- A reader of what one delimiter opens is blind if it is so on whole literals. -/
theorem blind_of_verbatim {reader : Reader α} {opening : Char} (hopening : opening ∈ "'\"#[".toList)
    (hkeeps : reader.Keeps) (hmisses : ∀ s : List Char, s.head? ≠ some opening → reader.Misses s)
    (hreader : ∀ text t t', Verbatim (opening :: text) t → Alike t t' →
      (reader (opening :: text ++ t)).Agrees (reader (opening :: text ++ t'))) : reader.Blind := by
  intro s s' h
  by_cases hs : s.head? = some opening
  · rcases h.relaid.unquote hopening hs with rfl | ⟨text, t, t', rfl, rfl, htext, ht⟩
    · exact agrees_self hkeeps h.returns
    · exact hreader text t t' htext ⟨ht, fun hmem => h.returns (List.mem_append_right _ hmem)⟩
  · exact agrees_of_misses (hmisses s hs)
      (hmisses s' fun hs' => hs ((h.relaid.head?_eq_some_iff hopening).mp hs'))

theorem blind_stringLiteral {quote : Char} (hquote : quote = '\'' ∨ quote = '"') :
    Blind (stringLiteral quote) := by
  have hopening : quote ∈ "'\"#[".toList := by rcases hquote with rfl | rfl <;> decide
  refine blind_of_verbatim hopening (keeps_stringLiteral quote)
    (fun s hs => bind_misses.mpr (.inl (char_misses.mpr hs))) fun text t t' htext ht => ?_
  cases htext with
  | @string _ body _ _ hbody hstop =>
    have hstop' : t'.head? ≠ some quote := mt (ht.relaid.head?_eq_some_iff hopening).mp hstop
    have hread {t : List Char} (hstop : t.head? ≠ some quote) :
        stringLiteral quote (quote :: (body ++ [quote]) ++ t) =
          .ok (.string (String.ofList body) quote) t :=
      stringLiteral_eq_ok.mpr ⟨body, rfl, by simp, hbody, hstop⟩
    exact agrees_of_ok (hread hstop) (hread hstop') ht
  | date => rcases hquote with h | h <;> exact absurd h (by decide)
  | bracketed => rcases hquote with h | h <;> exact absurd h (by decide)

/-- Nothing may be left out between two delimiters. -/
theorem misses_of_empty {opening closing : Char} {p : Char → Bool} (next : List Char → Reader α)
    (hp : p closing = false) (t : List Char) :
    Misses (char opening >>= fun _ => run1 p >>= next) (opening :: closing :: t) := by
  have hrun : Misses (run1 p) (closing :: t) := run1_misses.mpr (by simpa using hp)
  exact bind_misses.mpr (.inr ⟨(), _, char_eq_ok.mpr rfl, bind_misses.mpr (.inl hrun)⟩)

theorem blind_dateLiteral : Blind dateLiteral := by
  refine blind_of_verbatim (by decide) keeps_dateLiteral
    (fun s hs => bind_misses.mpr (.inl (char_misses.mpr hs))) fun text t t' htext ht => ?_
  cases htext with
  | string hquote => rcases hquote with h | h <;> exact absurd h (by decide)
  | @date body _ hbody =>
    by_cases hne : body = []
    · subst hne
      exact agrees_of_misses (misses_of_empty _ rfl t) (misses_of_empty _ rfl t')
    · have hread (t : List Char) : dateLiteral ('#' :: (body ++ ['#']) ++ t) =
          .ok (.date (String.ofList (Text.trim body))) t :=
        dateLiteral_eq_ok.mpr ⟨body, rfl, by simp, hbody, hne⟩
      exact agrees_of_ok (hread t) (hread t') ht

theorem blind_bracketedName : Blind bracketedName := by
  have hkeeps : Keeps bracketedName :=
    (keeps_char '[').bind fun _ => (keeps_run1 _).bind fun _ => (keeps_char ']').bind fun _ =>
      keeps_pure _
  refine blind_of_verbatim (by decide) hkeeps
    (fun s hs => bind_misses.mpr (.inl (char_misses.mpr hs))) fun text t t' htext ht => ?_
  cases htext with
  | string hquote => rcases hquote with h | h <;> exact absurd h (by decide)
  | @bracketed body _ hbody =>
    by_cases hne : body = []
    · subst hne
      exact agrees_of_misses (misses_of_empty _ rfl t) (misses_of_empty _ rfl t')
    · have hread (t : List Char) : bracketedName ('[' :: (body ++ [']']) ++ t) =
          .ok (String.ofList body) t :=
        bracketedName_eq_ok.mpr ⟨by simp, by simpa using hbody, by simpa using hne⟩
      exact agrees_of_ok (hread t) (hread t') ht

theorem blind_numberLiteral : Blind numberLiteral :=
  (blind_run1 fun _ => isLone_of_isDigit).bind fun _ =>
    ((blind_char (by decide) (by decide)).seqRight
      (blind_run1 fun _ => isLone_of_isDigit)).optional.bind fun _ => blind_pure _

theorem blind_literal : Blind literal := by
  refine blind_spacing.bind fun _ => Reader.Blind.bind ?_ fun _ => blind_pure _
  exact (blind_stringLiteral (.inl rfl)).orElse <| (blind_stringLiteral (.inr rfl)).orElse <|
    blind_dateLiteral.orElse <| blind_numberLiteral.orElse <|
      (blind_word _ (by decide)).orElse <|
        (blind_word _ (by decide)).orElse (blind_word _ (by decide))

theorem blind_rowCount : Blind rowCount :=
  blind_spacing.bind fun _ =>
    ((blind_run1 fun _ => isLone_of_isDigit).satisfying _).bind fun _ => blind_pure _

/-! ### Names -/

theorem blind_part : Blind part :=
  blind_spacing.bind fun _ =>
    (blind_bracketedName.bind fun _ => blind_pure _).orElse (blind_name.bind fun _ => blind_pure _)

theorem blind_tableAlias : Blind tableAlias :=
  blind_part.satisfying _

theorem separates_point : Separates (char '.') where
  blind := blind_char (by decide) (by decide)
  shorter := by
    intro s rest h
    rw [char_eq_ok.mp h]
    exact Nat.lt_succ_self _
  misses := char_misses.mpr (by simp)

theorem separates_comma : Separates (symbol ",") where
  blind := blind_symbol (by decide)
  shorter := by
    intro s rest h
    have hle := (skip_suffix false s).length_le
    rw [← skipSpacing, symbol_eq_ok.mp h] at hle
    exact Nat.lt_of_succ_le hle
  misses := symbol_misses.mpr (by simp [skipSpacing, skip])

theorem blind_parts : Blind parts :=
  blind_spacing.bind fun _ => blind_part.separated1 keeps_part separates_point

theorem blind_identifier : Blind identifier :=
  blind_parts.bind fun _ => blind_pure _

end JetSql.Grammar
