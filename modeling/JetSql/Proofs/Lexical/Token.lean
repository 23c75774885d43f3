/-
The tokens of a source text.

`tokens` cuts a text into words, numbers, literals and marks, and drops spacing and comments. It
knows nothing of statements: what a token is depends on the first character and on how far the text
goes on in kind. Two marks that make a longer one are taken together.

* **`tokens_skipSpacing`:** where every carriage return stands before a line feed, what the grammar
  skips between its tokens holds none.
* **`tokens_word`, `tokens_string`, …:** how the tokens of a text go on after each sort of token.
-/

import JetSql.Proofs.Grammar.Parentheses

namespace JetSql.Grammar

open Reader

/-- A token of a source text. Delimiters are left out, and doubled quotes are left doubled. -/
inductive Token where
  | word (text : List Char)
  | number (text : List Char)
  | string (quote : Char) (body : List Char)
  | date (body : List Char)
  | bracketed (body : List Char)
  | mark (text : List Char)
deriving DecidableEq, Repr

/-- Whether two marks make a longer one. -/
def joinsMark (c d : Char) : Bool :=
  (c == '<' && d == '>') || ("<>!".toList.contains c && d == '=')

/-- The decimals that a text begins with, with the point before them, and what follows. -/
def splitDecimals : List Char → List Char × List Char
  | [] => ([], [])
  | c :: s =>
    if c = '.' ∧ s.head?.any Char.isDigit then
      (c :: s.takeWhile Char.isDigit, s.dropWhile Char.isDigit)
    else ([], c :: s)

/-- The token that begins with a character, and the text after it. A string that nothing closes runs
to the end of the text, a date or a name in brackets to the end of the line. -/
def lexeme (c : Char) (s : List Char) : Token × List Char :=
  if Text.isWordStart c then
    (.word (c :: s.takeWhile Text.isWordChar), s.dropWhile Text.isWordChar)
  else if c.isDigit then
    let decimals := splitDecimals (s.dropWhile Char.isDigit)
    (.number (c :: s.takeWhile Char.isDigit ++ decimals.1), decimals.2)
  else if c = '\'' ∨ c = '"' then
    (.string c (Text.splitBody c s).1, (Text.splitBody c s).2.tail)
  else if c = '#' then (.date (s.takeWhile isDated), (s.dropWhile isDated).tail)
  else if c = '[' then (.bracketed (s.takeWhile isBracketed), (s.dropWhile isBracketed).tail)
  else
    match s with
    | [] => (.mark [c], [])
    | d :: rest => if joinsMark c d then (.mark [c, d], rest) else (.mark [c], d :: rest)

theorem splitDecimals_suffix (s : List Char) : (splitDecimals s).2 <:+ s := by
  cases s with
  | nil => exact List.suffix_rfl
  | cons c s =>
    rw [splitDecimals]
    split
    · exact (List.dropWhile_suffix _).trans (List.suffix_cons c s)
    · exact List.suffix_rfl

/-- What follows a token is left of the text as it stands. -/
theorem lexeme_suffix (c : Char) (s : List Char) : (lexeme c s).2 <:+ s := by
  fun_cases lexeme c s with
  | case1 => exact List.dropWhile_suffix _
  | case2 => exact (splitDecimals_suffix _).trans (List.dropWhile_suffix _)
  | case3 => exact (List.tail_suffix _).trans ⟨_, Text.splitBody_append c s⟩
  | case4 | case5 => exact (List.tail_suffix _).trans (List.dropWhile_suffix _)
  | case6 => exact List.suffix_rfl
  | case7 => exact List.suffix_cons ..
  | case8 => exact List.suffix_rfl

/-- The tokens of a text. A comment runs from two minus signs to the line feed. -/
def tokens : List Char → List Token
  | [] => []
  | c :: s =>
    if isSpacing c then tokens s
    else if c = '-' ∧ s.head? = some '-' then tokens (s.dropWhile (· != '\n'))
    else (lexeme c s).1 :: tokens (lexeme c s).2
termination_by s => s.length
decreasing_by
  · exact Nat.lt_succ_self _
  · exact Nat.lt_succ_of_le (List.dropWhile_suffix _).length_le
  · exact Nat.lt_succ_of_le (lexeme_suffix c s).length_le

example : tokens "a <>'b''c' -- d\n #1#".toList =
    [.word ['a'], .mark ['<', '>'], .string '\'' "b''c".toList, .date ['1']] := by
  cbv

section

variable {s rest : List Char} {c : Char}

theorem tokens_nil : tokens [] = [] := by
  rw [tokens]

theorem tokens_of_isSpacing (h : isSpacing c = true) (s : List Char) : tokens (c :: s) = tokens s := by
  rw [tokens, if_pos h]

theorem tokens_comment (s : List Char) :
    tokens ('-' :: '-' :: s) = tokens (s.dropWhile (· != '\n')) := by
  rw [tokens, if_neg (by decide), if_pos (by simp)]
  rfl

/-- Where no spacing and no comment comes next, a token does. -/
theorem tokens_cons (hspacing : isSpacing c = false) (hcomment : c = '-' → s.head? ≠ some '-') :
    tokens (c :: s) = (lexeme c s).1 :: tokens (lexeme c s).2 := by
  rw [tokens, if_neg (by simp [hspacing]), if_neg (not_and.mpr hcomment)]

/-! ### Spacing -/

theorem returnsPaired_of_suffix (hsuffix : rest <:+ s) (h : returnsPaired s = true) :
    returnsPaired rest = true := by
  obtain ⟨before, rfl⟩ := hsuffix
  induction before with
  | nil => exact h
  | cons c before ih =>
    rw [List.cons_append, returnsPaired, Bool.and_eq_true] at h
    exact ih h.2

/-- What is skipped holds no tokens. In a comment the text goes on behind the line feed. -/
theorem tokens_skip (inComment : Bool) (h : returnsPaired s = true) :
    tokens (skip inComment s) = tokens (if inComment then s.dropWhile (· != '\n') else s) := by
  fun_induction skip inComment s with
  | case1 inComment => cases inComment <;> rfl
  | case2 c rest ih =>
    rw [returnsPaired, Bool.and_eq_true] at h
    by_cases hfeed : c = '\n'
    · subst hfeed
      have hskip : tokens (skip false rest) = tokens rest := ih h.2
      simp [hskip, tokens_of_isSpacing (c := '\n') rfl]
    by_cases hreturn : c = '\r'
    · subst hreturn
      have hskip : tokens (skip false rest) = tokens rest := ih h.2
      have hhead : rest.head? = some '\n' := by simpa using h.1
      obtain ⟨after, rfl⟩ := List.head?_eq_some_iff.mp hhead
      simp [hskip]
    · simpa [hfeed, hreturn] using ih h.2
  | case3 inComment c rest hcomment hspacing ih =>
    rw [returnsPaired, Bool.and_eq_true] at h
    simpa [hcomment, tokens_of_isSpacing hspacing] using ih h.2
  | case4 inComment c rest hcomment hspacing hminus ih =>
    rw [returnsPaired, Bool.and_eq_true] at h
    obtain ⟨rfl, hopens⟩ : c = '-' ∧ opensComment rest = true := by simpa using hminus
    cases rest with
    | nil => simp [opensComment] at hopens
    | cons d rest =>
      rw [opensComment, Bool.and_eq_true, beq_iff_eq] at hopens
      obtain ⟨rfl, -⟩ := hopens
      simpa [hcomment, tokens_comment] using ih h.2
  | case5 inComment c rest hcomment => simp [hcomment]

theorem tokens_skipSpacing (h : returnsPaired s = true) : tokens (skipSpacing s) = tokens s :=
  tokens_skip false h

/-! ### One token -/

/-- A character of a class that spacing and the minus sign are not in begins a token. -/
theorem tokens_of_class {p : Char → Bool} (hp : (" \t\r\n-".toList.all fun d => !p d) = true)
    (h : p c = true) (s : List Char) :
    tokens (c :: s) = (lexeme c s).1 :: tokens (lexeme c s).2 := by
  obtain ⟨hspacing, hminus⟩ := isSpacing_eq_false_of_class hp h
  exact tokens_cons hspacing fun heq => absurd heq hminus

theorem tokens_word {w : List Char} (hw : Text.isWord w = true)
    (hrest : rest.head?.any Text.isWordChar = false) :
    tokens (w ++ rest) = .word w :: tokens rest := by
  obtain ⟨c, cs, rfl, hc, hall⟩ := Text.exists_of_isWord hw
  obtain ⟨htake, hdrop⟩ := takeWhile_eq_and_dropWhile_eq_iff.mpr ⟨rfl, hall, hrest⟩
  rw [List.cons_append, tokens_of_class (by decide) hc, lexeme.eq_def, if_pos hc, htake, hdrop]

/-- A number takes all digits, and a point only if a digit follows it. -/
theorem tokens_number {digits : List Char} (hne : digits ≠ []) (hdigits : digits.all Char.isDigit = true)
    (hrest : rest.head?.any Char.isDigit = false) :
    tokens (digits ++ rest) =
      .number (digits ++ (splitDecimals rest).1) :: tokens (splitDecimals rest).2 := by
  cases digits with
  | nil => exact absurd rfl hne
  | cons c cs =>
    rw [List.all_cons, Bool.and_eq_true] at hdigits
    obtain ⟨hc, hall⟩ := hdigits
    obtain ⟨htake, hdrop⟩ := takeWhile_eq_and_dropWhile_eq_iff.mpr ⟨rfl, hall, hrest⟩
    have hword : ¬ Text.isWordStart c = true := fun hword => by
      simp [isDigit_eq_false_of_isWordStart hword] at hc
    rw [List.cons_append, tokens_of_class (by decide) hc, lexeme.eq_def, if_neg hword, if_pos hc,
      htake, hdrop]

theorem splitDecimals_of_point {s : List Char} (h : s.head?.any Char.isDigit = true) :
    splitDecimals ('.' :: s) = ('.' :: s.takeWhile Char.isDigit, s.dropWhile Char.isDigit) := by
  rw [splitDecimals, if_pos ⟨rfl, h⟩]

theorem splitDecimals_of_none (h : ∀ after, s = '.' :: after → after.head?.any Char.isDigit = false) :
    splitDecimals s = ([], s) := by
  cases s with
  | nil => rfl
  | cons c s =>
    rw [splitDecimals, if_neg]
    rintro ⟨rfl, hdigit⟩
    simp [h s rfl] at hdigit

theorem tokens_string {quote : Char} {body : List Char} (hquote : quote = '\'' ∨ quote = '"')
    (hbody : Text.paired quote body = true) (hrest : rest.head? ≠ some quote) :
    tokens (quote :: (body ++ quote :: rest)) = .string quote body :: tokens rest := by
  have hsplit := Text.splitBody_of_paired hbody hrest
  rcases hquote with rfl | rfl <;>
    rw [tokens_cons (by decide) (by simp), lexeme.eq_def, if_neg (by decide), if_neg (by decide),
      if_pos (by decide), hsplit, List.tail_cons]

theorem tokens_date {body : List Char} (hbody : body.all isDated = true) (rest : List Char) :
    tokens ('#' :: (body ++ '#' :: rest)) = .date body :: tokens rest := by
  obtain ⟨htake, hdrop⟩ := takeWhile_eq_and_dropWhile_eq_iff.mpr
    (⟨rfl, hbody, rfl⟩ : body ++ '#' :: rest = body ++ '#' :: rest ∧ _ ∧ _)
  rw [tokens_cons (by decide) (by simp), lexeme.eq_def, if_neg (by decide), if_neg (by decide),
    if_neg (by decide), if_pos rfl, htake, hdrop, List.tail_cons]

theorem tokens_bracketed {body : List Char} (hbody : body.all isBracketed = true) (rest : List Char) :
    tokens ('[' :: (body ++ ']' :: rest)) = .bracketed body :: tokens rest := by
  obtain ⟨htake, hdrop⟩ := takeWhile_eq_and_dropWhile_eq_iff.mpr
    (⟨rfl, hbody, rfl⟩ : body ++ ']' :: rest = body ++ ']' :: rest ∧ _ ∧ _)
  rw [tokens_cons (by decide) (by simp), lexeme.eq_def, if_neg (by decide), if_neg (by decide),
    if_neg (by decide), if_neg (by decide), if_pos rfl, htake, hdrop, List.tail_cons]

/-- A character that begins no word, no number and no literal, and is no spacing. -/
def isMark (c : Char) : Bool :=
  !(isSpacing c || Text.isWordStart c || c.isDigit || "'\"#[".toList.contains c)

theorem lexeme_mark (h : isMark c = true) (s : List Char) :
    lexeme c s =
      match s with
      | [] => (.mark [c], [])
      | d :: rest => if joinsMark c d then (.mark [c, d], rest) else (.mark [c], d :: rest) := by
  simp only [isMark, Bool.not_eq_true', Bool.or_eq_false_iff] at h
  obtain ⟨⟨⟨-, hword⟩, hdigit⟩, hopens⟩ := h
  have hne (d : Char) (hd : d ∈ "'\"#[".toList) : c ≠ d := by
    rintro rfl
    exact Bool.false_ne_true (hopens.symm.trans (List.contains_iff_mem.mpr hd))
  rw [lexeme.eq_def, if_neg (by simp [hword]), if_neg (by simp [hdigit]),
    if_neg (not_or.mpr ⟨hne _ (by decide), hne _ (by decide)⟩), if_neg (hne _ (by decide)),
    if_neg (hne _ (by decide))]

theorem isSpacing_eq_false_of_isMark (h : isMark c = true) : isSpacing c = false := by
  simp only [isMark, Bool.not_eq_true', Bool.or_eq_false_iff] at h
  exact h.1.1.1

/-- A mark stands alone unless the next character makes it a longer one. -/
theorem tokens_mark (h : isMark c = true) (hcomment : c = '-' → rest.head? ≠ some '-')
    (hjoins : ∀ d, rest.head? = some d → joinsMark c d = false) :
    tokens (c :: rest) = .mark [c] :: tokens rest := by
  rw [tokens_cons (isSpacing_eq_false_of_isMark h) hcomment, lexeme_mark h]
  cases rest with
  | nil => rfl
  | cons d rest => simp [hjoins d rfl]

theorem tokens_longMark {d : Char} (h : isMark c = true) (hjoins : joinsMark c d = true)
    (hcomment : c ≠ '-') : tokens (c :: d :: rest) = .mark [c, d] :: tokens rest := by
  rw [tokens_cons (isSpacing_eq_false_of_isMark h) fun heq => absurd heq hcomment, lexeme_mark h]
  simp [hjoins]

end

end JetSql.Grammar
