/-
Tokens at the beginning of a written text: what the readers of spacing, marks and keywords make of
them.

`Closes words rest` says that a written phrase ends before `rest`: nothing is left, or a comma or a
closing parenthesis follows, or a blank and one of some words.
-/

import JetSql.Grammar.Statement
import JetSql.Proofs.Grammar.Abort
import JetSql.Proofs.Grammar.Source
import JetSql.Proofs.Text.Case

namespace JetSql.Grammar

open Reader

variable {s rest : List Char}

/-! ### Spacing -/

@[simp] theorem skipSpacing_blank (s : List Char) : skipSpacing (' ' :: s) = skipSpacing s := by
  rfl

theorem skipSpacing_cons {c : Char} (hspacing : isSpacing c = false) (hminus : c ≠ '-')
    (s : List Char) : skipSpacing (c :: s) = c :: s := by
  rw [skipSpacing, skip]
  simp [hspacing, hminus]

theorem skipSpacing_minus (h : s.head? ≠ some '-') : skipSpacing ('-' :: s) = '-' :: s := by
  cases s with
  | nil => rfl
  | cons c s =>
    have hc : c ≠ '-' := by simpa using h
    rw [skipSpacing, skip]
    simp [isSpacing, opensComment, hc]

/-- A character of a class that spacing and the minus sign are not in is neither. -/
theorem isSpacing_eq_false_of_class {p : Char → Bool} {c : Char}
    (hp : (" \t\r\n-".toList.all fun d => !p d) = true) (h : p c = true) :
    isSpacing c = false ∧ c ≠ '-' := by
  have hne (d : Char) (hd : d ∈ " \t\r\n-".toList) : c ≠ d := by
    rintro rfl
    simpa [h] using List.all_eq_true.mp hp c hd
  refine ⟨?_, hne '-' (by decide)⟩
  simp [isSpacing, hne ' ' (by decide), hne '\t' (by decide), hne '\r' (by decide),
    hne '\n' (by decide)]

/-- So nothing is skipped before such a character. -/
theorem skipSpacing_of_class {p : Char → Bool} {c : Char}
    (hp : (" \t\r\n-".toList.all fun d => !p d) = true) (h : p c = true) (s : List Char) :
    skipSpacing (c :: s) = c :: s := by
  obtain ⟨hspacing, hminus⟩ := isSpacing_eq_false_of_class hp h
  exact skipSpacing_cons hspacing hminus s

theorem skipSpacing_word {w : List Char} (h : Text.isWord w = true) (rest : List Char) :
    skipSpacing (w ++ rest) = w ++ rest := by
  obtain ⟨c, cs, rfl, hc, -⟩ := Text.exists_of_isWord h
  exact skipSpacing_of_class (by decide) hc _

/-! ### Blanks before a token -/

@[simp] theorem keyword_blank (word : String) (s : List Char) :
    keyword word (' ' :: s) = keyword word s := by
  simp [keyword]

/-! ### Words -/

theorem isAlpha_iff {c : Char} : c.isAlpha = true ↔
    'A'.val ≤ c.val ∧ c.val ≤ 'Z'.val ∨ 'a'.val ≤ c.val ∧ c.val ≤ 'z'.val :=
  Bool.or_eq_true_iff.trans (or_congr decide_eq_true_iff
    (Bool.and_eq_true_iff.trans (and_congr decide_eq_true_iff decide_eq_true_iff)))

/-- What becomes a capital letter in upper case may begin a word. -/
theorem isWordStart_of_isUpper_toUpper {c : Char} (h : c.toUpper.isUpper = true) :
    Text.isWordStart c = true := by
  have hletter : c.isAlpha = true ∧ c.val ≤ 'z'.val := by
    by_cases hlower : 'a'.val ≤ c.val ∧ c.val ≤ 'z'.val
    · exact ⟨isAlpha_iff.mpr (.inr hlower), hlower.2⟩
    · have hsame : c.toUpper = c := dif_neg hlower
      have hupper : 'A'.val ≤ c.val ∧ c.val ≤ 'Z'.val := of_decide_eq_true (hsame ▸ h)
      exact ⟨isAlpha_iff.mpr (.inl hupper), UInt32.le_trans hupper.2 (by decide)⟩
  have hascii : c.toNat < 0x80 :=
    Nat.lt_of_le_of_lt (UInt32.le_iff_toNat_le.mp hletter.2) (by decide)
  rw [Text.isWordStart, Text.isAlphabetic_of_isAlpha hletter.1 hascii]
  rfl

/-- A digit begins no word. -/
theorem isDigit_eq_false_of_isWordStart {c : Char} (h : Text.isWordStart c = true) :
    c.isDigit = false := by
  rw [← Bool.not_eq_true]
  intro hdigit
  simp only [Char.isDigit, ge_iff_le, Bool.and_eq_true, decide_eq_true_eq,
    UInt32.le_iff_toNat_le] at hdigit
  have hascii : c.toNat < 0x80 := Nat.lt_of_le_of_lt hdigit.2 (by decide)
  simp only [Text.isWordStart, Text.isAlphabetic, hascii, if_true, Bool.or_eq_true, isAlpha_iff,
    beq_iff_eq, UInt32.le_iff_toNat_le] at h
  rcases h with (h | h) | rfl
  · exact absurd (Nat.le_trans h.1 hdigit.2) (by decide)
  · exact absurd (Nat.le_trans h.1 hdigit.2) (by decide)
  · exact absurd hdigit.2 (by decide)

/-- A written keyword is read. -/
theorem keyword_source (word : String)
    (hword : Text.isWord word.toList = true ∧ word.toList.map Char.toUpper = word.toList)
    (hrest : rest.head?.any Text.isWordChar = false) :
    keyword word (word.toList ++ rest) = .ok () rest :=
  keyword_eq_ok.mpr ⟨⟨word.toList, skipSpacing_word hword.1 rest, hword.2⟩, hrest⟩

/-- Where a word stands, a keyword is read only if it is that word. -/
theorem map_toUpper_of_keyword {word : String} {w stop : List Char}
    (hword : word.toList.all Char.isUpper = true) (hw : Text.isWord w = true)
    (hrest : rest.head?.any Text.isWordChar = false) (h : keyword word (w ++ rest) = .ok () stop) :
    w.map Char.toUpper = word.toList := by
  obtain ⟨⟨written, hs, hwritten⟩, hstop⟩ := keyword_eq_ok.mp h
  rw [skipSpacing_word hw] at hs
  have hall : w.all Text.isWordChar = true := by
    obtain ⟨c, cs, rfl, hc, hcs⟩ := Text.exists_of_isWord hw
    rw [List.all_cons, Text.isWordChar_of_isWordStart hc, hcs, Bool.and_self]
  have hletters : written.all Text.isWordChar = true := by
    have hupper := List.all_eq_true.mp hword
    rw [List.all_eq_true]
    intro c hc
    exact Text.isWordChar_of_isWordStart
      (isWordStart_of_isUpper_toUpper (hupper _ (hwritten ▸ List.mem_map_of_mem hc)))
  -- Both are the longest stretch of word characters that the text begins with.
  have hlongest := takeWhile_eq_and_dropWhile_eq_iff.mpr ⟨rfl, hall, hrest⟩
  have hlongest' := takeWhile_eq_and_dropWhile_eq_iff.mpr ⟨hs, hletters, hstop⟩
  exact hlongest.1.symm.trans hlongest'.1 ▸ hwritten

/-- Where a word stands, no other keyword is read. -/
theorem keyword_misses_word (word : String) {w : List Char} (hword : isSteady word = true)
    (hw : Text.isWord w = true) (hrest : rest.head?.any Text.isWordChar = false)
    (hne : w.map Char.toUpper ≠ word.toList) : Misses (keyword word) (w ++ rest) :=
  (keyword_misses hword).mpr fun _ hok =>
    hne (map_toUpper_of_keyword (all_isUpper_of_isSteady hword) hw hrest hok)

theorem isWordStart_kelvinSign : Text.isWordStart kelvinSign = true := by
  decide +kernel

/-- Where no word begins, no keyword is read. -/
theorem keyword_misses_of_no_word {word : String}
    (hword : word.toList ≠ [] ∧ word.toList.all Char.isUpper = true)
    (hs : (skipSpacing s).head?.any Text.isWordStart = false) : Misses (keyword word) s := by
  obtain ⟨hne, hupper⟩ := hword
  obtain ⟨d, ds, hd⟩ := List.exists_cons_of_ne_nil hne
  rw [hd, List.all_cons, Bool.and_eq_true] at hupper
  refine keyword_misses_of_head? (by rw [hd]; rfl) ?_ ?_
  · rintro - hsign
    rw [hsign, Option.any_some, isWordStart_kelvinSign] at hs
    cases hs
  · intro hhead
    cases hc : (skipSpacing s).head? with
    | none => simp [hc] at hhead
    | some c =>
      rw [hc, Option.map_some, Option.some.injEq] at hhead
      rw [← hhead] at hupper
      simp [hc, isWordStart_of_isUpper_toUpper hupper.1] at hs

/-! ### Words and the Kelvin sign -/

/-- A fixed text in capitals that is longer than a word agrees with it only where the word is all that
is left. -/
theorem agreesInAnyCase_append {fixed : List Char} (hfixed : fixed.all Char.isUpper = true)
    (hrest : rest.head?.any Text.isWordChar = false) (w : List Char) :
    agreesInAnyCase fixed (w ++ rest) =
      (agreesInAnyCase fixed w && (rest.isEmpty || decide (fixed.length ≤ w.length))) := by
  induction w generalizing fixed with
  | nil =>
    cases fixed with
    | nil => simp [agreesInAnyCase]
    | cons c fixed =>
      cases rest with
      | nil => simp [agreesInAnyCase]
      | cons d rest =>
        have hd : Text.isWordStart d ≠ true := by
          intro hd
          simp [Text.isWordChar_of_isWordStart hd] at hrest
        have hletter : d.toUpper ≠ c := by
          rintro rfl
          rw [List.all_cons, Bool.and_eq_true] at hfixed
          exact hd (isWordStart_of_isUpper_toUpper hfixed.1)
        have hsign : d ≠ kelvinSign := by
          rintro rfl
          exact hd isWordStart_kelvinSign
        simp [agreesInAnyCase, hletter, hsign]
  | cons d w ih =>
    cases fixed with
    | nil => simp [agreesInAnyCase]
    | cons c fixed =>
      rw [List.all_cons, Bool.and_eq_true] at hfixed
      rw [List.cons_append, agreesInAnyCase, agreesInAnyCase, ih hfixed.2, Bool.and_assoc]
      simp

/-- So does it agree with it through a Kelvin sign. -/
theorem splitsCharacter_append {fixed : List Char} (hfixed : fixed.all Char.isUpper = true)
    (hrest : rest.head?.any Text.isWordChar = false) (w : List Char) :
    splitsCharacter fixed (w ++ rest) =
      (splitsCharacter fixed w && (rest.isEmpty || decide (fixed.length ≤ w.length))) := by
  rw [splitsCharacter, splitsCharacter, agreesInAnyCase_append hfixed hrest]
  by_cases hends : (rest.isEmpty || decide (fixed.length ≤ w.length)) = true
  · have htake : (w ++ rest).take fixed.length = w.take fixed.length := by
      rw [Bool.or_eq_true, List.isEmpty_iff, decide_eq_true_eq] at hends
      rcases hends with rfl | hlength
      · rw [List.append_nil]
      · exact List.take_append_of_le_length hlength
    rw [htake, hends, Bool.and_true, Bool.and_true]
  · simp [hends]

/-- No text agrees through a Kelvin sign that begins with a word without one. -/
theorem splitsCharacter_of_word {fixed w : List Char} (hfixed : fixed.all Char.isUpper = true)
    (hw : kelvinSign ∉ w) (hrest : rest.head?.any Text.isWordChar = false) :
    splitsCharacter fixed (w ++ rest) = false := by
  have hsign : (w.take fixed.length).contains kelvinSign = false := by
    simpa using fun hmem => hw (List.mem_of_mem_take hmem)
  rw [splitsCharacter_append hfixed hrest, splitsCharacter, hsign, Bool.and_false, Bool.false_and]

theorem isReserved_of_mem {w : String} (h : w ∈ reservedWords) : isReserved w = true := by
  have hwords : ∀ w ∈ reservedWords, w.toList.map Char.toUpper = w.toList := by decide
  rw [isReserved, Text.toUpper_eq _ (hwords w h)]
  exact List.contains_iff_mem.mpr h

/-- A word is a name if its upper case is not a reserved word. -/
theorem isName_of_toUpper {w : String} (upper : String)
    (h : w.toList.map Char.toUpper = upper.toList) (hword : Text.isWord w.toList = true)
    (hreserved : reservedWords.contains upper = false) : IsName w := by
  refine ⟨hword, ?_⟩
  rw [isReserved, Text.toUpper_eq upper h, hreserved]

/-- A reserved word is no name. -/
theorem name_misses_reserved {w : String} (hw : w ∈ reservedWords)
    (hrest : rest.head?.any Text.isWordChar = false) : Misses name (w.toList ++ rest) := by
  have hisword := (by decide : ∀ w ∈ reservedWords, Text.isWord w.toList = true) w hw
  exact satisfying_misses.mpr (.inr ⟨w, rest, word_eq_ok.mpr ⟨rfl, hisword, hrest⟩,
    by simp [isReserved_of_mem hw]⟩)

/-- A bare name is no keyword. -/
theorem keyword_misses_name {word w : String} (hword : word ∈ reservedWords ∧ isSteady word = true)
    (hw : IsName w) (hrest : rest.head?.any Text.isWordChar = false) :
    Misses (keyword word) (w.toList ++ rest) := by
  refine keyword_misses_word _ hword.2 hw.1 hrest fun heq => ?_
  have := hw.2
  rw [isReserved, Text.toUpper_eq _ heq, List.contains_eq_mem] at this
  simp [hword] at this

/-- A mark is not read where another character comes next. -/
theorem symbol_misses_of_head? {c : Char} {mark : String} (hmark : mark.toList.head? = some c)
    (hs : (skipSpacing s).head? ≠ some c) : Misses (symbol mark) s := by
  rw [symbol_misses]
  rintro rest h
  rw [h, List.head?_append, hmark] at hs
  exact hs rfl

/-! ### Where a phrase ends -/

/-- A text begins with a blank and one of some words, or is empty. -/
def Begins (words : List String) (s : List Char) : Prop :=
  s = [] ∨ ∃ word ∈ words, ∃ rest, rest.head?.any Text.isWordChar = false ∧
    s = ' ' :: (word.toList ++ rest)

/-- A text that no phrase goes on with: nothing, a mark that separates or closes, or one of some
words. -/
def Closes (words : List String) (s : List Char) : Prop :=
  Begins words s ∨ ∃ c rest, (c = ',' ∨ c = ')') ∧ s = c :: rest

/-- The words that may follow an expression. -/
def closers : List String :=
  ["AS", "ASC", "DESC", "FROM", "WHERE", "GROUP", "HAVING", "ORDER", "PIVOT", "ON", "INNER", "LEFT",
   "RIGHT", "SELECT"]

section

variable {words words' : List String}

theorem Begins.mono (h : Begins words s) (hsub : words ⊆ words') : Begins words' s := by
  rcases h with rfl | ⟨word, hword, rest⟩
  · exact .inl rfl
  · exact .inr ⟨word, hsub hword, rest⟩

theorem Closes.mono (h : Closes words s) (hsub : words ⊆ words') : Closes words' s :=
  h.imp_left fun h => h.mono hsub

theorem closes_comma (words : List String) (rest : List Char) : Closes words (',' :: rest) :=
  .inr ⟨',', rest, .inl rfl, rfl⟩

theorem closes_paren (words : List String) (rest : List Char) : Closes words (')' :: rest) :=
  .inr ⟨')', rest, .inr rfl, rfl⟩

/-- No keyword is read where other words come. -/
theorem Begins.keyword_misses {word : String} (h : Begins words s)
    (hword : word.toList ≠ [] ∧ isSteady word = true)
    (hwords : ∀ other ∈ words, Text.isWord other.toList = true ∧
      other.toList.map Char.toUpper ≠ word.toList) : Misses (keyword word) s := by
  rcases h with rfl | ⟨other, hother, rest, hrest, rfl⟩
  · exact keyword_misses_of_no_word ⟨hword.1, all_isUpper_of_isSteady hword.2⟩ rfl
  · obtain ⟨hisword, hne⟩ := hwords other hother
    have := keyword_misses_word _ hword.2 hisword hrest hne
    rwa [Misses, keyword_blank]

theorem Closes.keyword_misses {word : String} (h : Closes words s)
    (hword : word.toList ≠ [] ∧ isSteady word = true)
    (hwords : ∀ other ∈ words, Text.isWord other.toList = true ∧
      other.toList.map Char.toUpper ≠ word.toList) : Misses (keyword word) s := by
  have hupper := all_isUpper_of_isSteady hword.2
  rcases h with h | ⟨c, rest, rfl | rfl, rfl⟩
  · exact h.keyword_misses hword hwords
  · exact keyword_misses_of_no_word ⟨hword.1, hupper⟩
      (by rw [skipSpacing_cons (by decide) (by decide)]; rfl)
  · exact keyword_misses_of_no_word ⟨hword.1, hupper⟩
      (by rw [skipSpacing_cons (by decide) (by decide)]; rfl)

/-- No mark is read where words come. -/
theorem Begins.symbol_misses {mark : String} {c : Char} (h : Begins words s)
    (hmark : mark.toList.head? = some c) (hc : Text.isWordStart c = false)
    (hwords : ∀ word ∈ words, Text.isWord word.toList = true) : Misses (symbol mark) s := by
  refine symbol_misses_of_head? hmark ?_
  rcases h with rfl | ⟨word, hword, rest, -, rfl⟩
  · simp [skipSpacing, skip]
  · have hisword := hwords word hword
    obtain ⟨d, t, hw, hd, -⟩ := Text.exists_of_isWord hisword
    rw [skipSpacing_blank, skipSpacing_word hisword, hw]
    rintro ⟨⟩
    simp [hc] at hd

/-- No link is read where an expression ends. -/
theorem Closes.read_eq (h : Closes closers s) : Link.read s = .ok none s := by
  rcases h with (rfl | ⟨word, hword, rest, -, rfl⟩) | ⟨c, rest, rfl | rfl, rfl⟩
  · rfl
  · simp only [closers, List.mem_cons, List.not_mem_nil, or_false] at hword
    rcases hword with rfl | rfl | rfl | rfl | rfl | rfl | rfl | rfl | rfl | rfl | rfl | rfl | rfl |
      rfl <;> rfl
  · rfl
  · rfl

/-- A text that stands apart from a name or number before it, makes no call of the name, and breaks no
reading off. -/
structure Apart (s : List Char) : Prop where
  head : ∀ c, s.head? = some c → c = ' ' ∨ c = ',' ∨ c = ')'
  noCall : Misses (symbol "(") s
  unbroken : Unbroken s

theorem Apart.cases (h : Apart s) :
    s = [] ∨ ∃ c rest, s = c :: rest ∧ (c = ' ' ∨ c = ',' ∨ c = ')') := by
  cases s with
  | nil => exact .inl rfl
  | cons c rest => exact .inr ⟨c, rest, rfl, h.head c rfl⟩

theorem Apart.head?_any {p : Char → Bool} (h : Apart s)
    (hp : (" ,)".toList.all fun c => !p c) = true) : s.head?.any p = false := by
  cases hs : s.head? with
  | none => rfl
  | some c => rcases h.head c hs with rfl | rfl | rfl <;> simp_all

theorem Apart.head?_ne {c : Char} (h : Apart s) (hc : c ∉ " ,)".toList) : s.head? ≠ some c := by
  intro hs
  rcases h.head c hs with rfl | rfl | rfl <;> exact hc (by decide)

/-- A written link begins with a blank and a character that no mark around it begins with. -/
theorem Link.source_eq (link : Link) :
    ∃ c t, link.source = ' ' :: c :: t ∧ isSpacing c = false ∧ c ≠ '(' ∧ (c = '-' → t = []) := by
  cases link with
  | logical op | compare op | arithmetic op =>
    cases op <;> exact ⟨_, _, rfl, by decide, by decide, by decide⟩
  | isNull negated | inList negated | between negated =>
    cases negated <;> exact ⟨_, _, rfl, by decide, by decide, by decide⟩

/-- A written link breaks no reading off: a written `LIKE` is the keyword itself. -/
theorem unbroken_link (link : Link) (hrest : rest.head? ≠ some '-') :
    Unbroken (link.source ++ rest) := by
  have hminus : skipSpacing ((Link.arithmetic .sub).source ++ rest) = '-' :: rest :=
    skipSpacing_minus hrest
  refine unbroken_of_like (keyword_ne_halt ?_) fun t hnot => keyword_ne_halt ?_
  · cases link with
    | logical op | compare op => cases op <;> rfl
    | arithmetic op =>
      cases op with
      | sub =>
        rw [hminus]
        rfl
      | _ => rfl
    | isNull negated | inList negated | between negated => cases negated <;> rfl
  · cases link with
    | logical op => cases op <;> cases hnot
    | compare op =>
      cases op
      all_goals cases hnot
      rfl
    | arithmetic op =>
      cases op with
      | sub =>
        have hhead := head?_of_keyword hnot (by decide)
        rw [hminus] at hhead
        cases hhead
      | _ => cases hnot
    | isNull negated => cases negated <;> cases hnot
    | inList negated | between negated =>
      cases negated with
      | true =>
        cases hnot
        rfl
      | false => cases hnot

theorem apart_link (link : Link) (hrest : rest.head? ≠ some '-') : Apart (link.source ++ rest) := by
  obtain ⟨c, t, hlink, hspacing, hparen, hminus⟩ := link.source_eq
  rw [hlink]
  refine ⟨by simp, symbol_misses_of_head? (c := '(') rfl ?_, hlink ▸ unbroken_link link hrest⟩
  by_cases hc : c = '-'
  · subst hc
    rw [hminus rfl, List.cons_append, skipSpacing_blank, List.cons_append, List.nil_append,
      skipSpacing_minus hrest]
    simp
  · rw [List.cons_append, skipSpacing_blank, List.cons_append, skipSpacing_cons hspacing hc]
    simpa using hparen

theorem Closes.apart (h : Closes closers s) : Apart s := by
  constructor
  · rcases h with (rfl | ⟨word, hword, rest, -, rfl⟩) | ⟨c, rest, rfl | rfl, rfl⟩ <;> simp
  · refine symbol_misses_of_head? (c := '(') rfl ?_
    rcases h with (rfl | ⟨word, hword, rest, -, rfl⟩) | ⟨c, rest, rfl | rfl, rfl⟩
    · simp [skipSpacing, skip]
    · have hisword := (by decide : ∀ word ∈ closers, Text.isWord word.toList = true) word hword
      obtain ⟨c, t, hw, hc, -⟩ := Text.exists_of_isWord hisword
      rw [skipSpacing_blank, skipSpacing_word hisword, hw]
      rintro ⟨⟩
      exact absurd hc (by decide)
    · simp [skipSpacing_cons, isSpacing]
    · simp [skipSpacing_cons, isSpacing]
  · intro error hhalt
    rw [h.read_eq] at hhalt
    cases hhalt

end

end JetSql.Grammar
