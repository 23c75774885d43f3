/-
Laying a text out anew.

`Relaid s s'` says that `s'` is `s` with some of its spacing put in anew and some of its reserved
words in another case. The text is cut as it is written: spacing is taken whole, and so are words
and literals; a digit or a mark is taken alone, since nothing can be put between two of them where
nothing stood. From any such place on the text may be kept as it is.

* **`Relaid.skipSpacing`:** what is left after spacing is related again. This is where a comment
  must end with a line feed alone: a carriage return could make it no comment.
* **`Relaid.uncons`:** a digit or a mark comes first in one of the texts if it does in the other.
* **`Relaid.head?_any`:** the first characters agree on every class that tells no letters apart and
  has neither blanks nor the minus sign in it.
-/

import JetSql.Proofs.Grammar.Parentheses
import JetSql.Proofs.ReadBack.Token

namespace JetSql.Grammar

open Reader

/-! ### Spacing -/

/-- Whether nothing is to be skipped before a text. -/
def tight : List Char → Bool
  | [] => true
  | c :: s => !isSpacing c && !(c == '-' && s.head? == some '-')

/-- Whether a text stays on its line. -/
def onOneLine (s : List Char) : Bool :=
  s.all fun c => c != '\n' && c != '\r'

/-- Blanks, tabs, line feeds and comments that a line feed ends. -/
inductive Spaced : List Char → Prop where
  | nil : Spaced []
  | blank {c : Char} {gap : List Char} : c ∈ " \t\n".toList → Spaced gap → Spaced (c :: gap)
  | comment {text gap : List Char} :
      onOneLine text = true → Spaced gap → Spaced ('-' :: '-' :: (text ++ '\n' :: gap))

/-- All the spacing that stands before a text. Only at the end may a comment be left open. -/
inductive SpacedBefore : List Char → List Char → Prop where
  | closed {gap rest : List Char} :
      Spaced gap → gap ≠ [] → tight rest = true → SpacedBefore gap rest
  | openComment {gap text : List Char} :
      Spaced gap → onOneLine text = true → SpacedBefore (gap ++ '-' :: '-' :: text) []

/-- Spacing that may be put in: it begins with a blank, so that it cannot run together with a minus
sign before it. -/
inductive Filler : List Char → Prop where
  | intro {c : Char} {gap : List Char} : c ∈ " \t\n".toList → Spaced gap → Filler (c :: gap)

/-! ### Words and literals -/

/-- A word put in anew: the word itself, or the same reserved word in another case. -/
def Recased (w w' : List Char) : Prop :=
  w' = w ∨ isReserved (String.ofList w) = true ∧ w'.map Char.toUpper = w.map Char.toUpper

/-- A literal or a name in brackets, and a text that does not go on with it. -/
inductive Verbatim : List Char → List Char → Prop where
  | string {quote : Char} {body rest : List Char} : quote = '\'' ∨ quote = '"' →
      Text.paired quote body = true → rest.head? ≠ some quote →
      Verbatim (quote :: (body ++ [quote])) rest
  | date {body rest : List Char} : body.all isDated = true → Verbatim ('#' :: (body ++ ['#'])) rest
  | bracketed {body rest : List Char} :
      body.all isBracketed = true → Verbatim ('[' :: (body ++ [']'])) rest

/-- A character that begins no spacing but perhaps a comment, no word, no literal and no name in
brackets: a digit or a mark. -/
def isLone (c : Char) : Bool :=
  !(isSpacing c || Text.isWordStart c || "'\"#[".toList.contains c)

/-! ### Texts -/

/-- A text laid out anew. -/
inductive Relaid : List Char → List Char → Prop where
  | kept (s : List Char) : Relaid s s
  | spacing {gap gap' s s' : List Char} :
      SpacedBefore gap s → gap' = gap ∨ Filler gap' → Relaid s s' → Relaid (gap ++ s) (gap' ++ s')
  | word {w w' s s' : List Char} :
      Text.isWord w = true → s.head?.any Text.isWordChar = false → Recased w w' →
      Relaid s s' → Relaid (w ++ s) (w' ++ s')
  | verbatim {text s s' : List Char} :
      Verbatim text s → Relaid s s' → Relaid (text ++ s) (text ++ s')
  | lone {c : Char} {s s' : List Char} :
      isLone c = true → tight (c :: s) = true → Relaid s s' → Relaid (c :: s) (c :: s')

variable {s s' rest rest' gap : List Char} {c : Char}

/-! ### Spacing is skipped whole -/

theorem isSpacing_of_blank (h : c ∈ " \t\n".toList) : isSpacing c = true := by
  have hall : " \t\n".toList.all isSpacing = true := by decide
  exact List.all_eq_true.mp hall c h

theorem tight_cons (hspacing : isSpacing c = false) (hminus : c = '-' → s.head? ≠ some '-') :
    tight (c :: s) = true := by
  rw [tight, hspacing]
  by_cases hc : c = '-'
  · simpa [hc] using hminus hc
  · simp [hc]

theorem skipSpacing_of_tight (h : tight s = true) : skipSpacing s = s := by
  cases s with
  | nil => rfl
  | cons c s =>
    rw [tight, Bool.and_eq_true, Bool.not_eq_true', Bool.not_eq_true'] at h
    by_cases hminus : c = '-'
    · subst hminus
      exact skipSpacing_minus (by simpa using h.2)
    · exact skipSpacing_cons h.1 hminus s

/-- Without carriage returns there is none that stands alone. -/
theorem returnsPaired_of_not_mem (h : '\r' ∉ s) : returnsPaired s = true := by
  induction s with
  | nil => rfl
  | cons c s ih =>
    obtain ⟨hc, hs⟩ := not_or.mp (mt List.mem_cons.mpr h)
    simpa [returnsPaired, Ne.symm hc] using ih hs

/-- Without carriage returns two minus signs always open a comment, so none of them is left. -/
theorem tight_skipSpacing (h : '\r' ∉ s) : tight (skipSpacing s) = true := by
  have hreturns : '\r' ∉ skipSpacing s := fun hmem => h ((skip_suffix false s).subset hmem)
  have hskip := skipSpacing_skipSpacing s
  cases hs : skipSpacing s with
  | nil => rfl
  | cons c t =>
    rw [hs] at hskip hreturns
    rw [skipSpacing, skip] at hskip
    have hshort (inComment : Bool) : skip inComment t ≠ c :: t := fun heq => by
      have := (skip_suffix inComment t).length_le
      rw [heq, List.length_cons] at this
      omega
    have hline := lineEndsWell_of_returnsPaired
      (returnsPaired_of_not_mem (mt (List.mem_cons_of_mem c) hreturns))
    by_cases hspacing : isSpacing c = true
    · exact absurd (by simpa [hspacing] using hskip) (hshort false)
    · by_cases hminus : c = '-' ∧ t.head? = some '-'
      · obtain ⟨rfl, hhead⟩ := hminus
        obtain ⟨u, rfl⟩ := List.head?_eq_some_iff.mp hhead
        have hopens : opensComment ('-' :: u) = true := by
          simpa [opensComment, lineEndsWell] using hline
        exact absurd (by simpa [hspacing, hopens] using hskip) (hshort true)
      · exact tight_cons (by simpa using hspacing) (not_and.mp hminus)

theorem skip_comment {text : List Char} (h : onOneLine text = true) (s : List Char) :
    skip true (text ++ '\n' :: s) = skip false s := by
  induction text with
  | nil => rfl
  | cons c text ih =>
    rw [onOneLine, List.all_cons, Bool.and_eq_true] at h
    rw [List.cons_append, skip, if_pos rfl, h.1]
    exact ih h.2

theorem skip_openComment {text : List Char} (h : onOneLine text = true) : skip true text = [] := by
  induction text with
  | nil => rfl
  | cons c text ih =>
    rw [onOneLine, List.all_cons, Bool.and_eq_true] at h
    rw [skip, if_pos rfl, h.1]
    exact ih h.2

/-- What stays on its line ends well, whatever the next line holds. -/
theorem lineEndsWell_append {text : List Char} (h : onOneLine text = true)
    (hs : lineEndsWell s = true) : lineEndsWell (text ++ s) = true := by
  induction text with
  | nil => exact hs
  | cons c text ih =>
    simp only [onOneLine, List.all_cons, Bool.and_eq_true, bne_iff_ne] at h
    rw [List.cons_append, lineEndsWell, if_neg h.1.1, if_neg h.1.2]
    exact ih h.2

/-- Two minus signs before a line that ends well open a comment. -/
theorem skipSpacing_minuses (h : lineEndsWell s = true) :
    skipSpacing ('-' :: '-' :: s) = skip true s := by
  simp [skipSpacing, skip, isSpacing, opensComment, h]

theorem skipSpacing_spaced (h : Spaced gap) (s : List Char) :
    skipSpacing (gap ++ s) = skipSpacing s := by
  induction h with
  | nil => rfl
  | blank hc _ ih =>
    rw [List.cons_append, skipSpacing, skip]
    simp only [isSpacing_of_blank hc, Bool.false_eq_true, if_false, if_true]
    exact ih
  | @comment text gap htext _ ih =>
    have hline : lineEndsWell (text ++ '\n' :: (gap ++ s)) = true := lineEndsWell_append htext rfl
    simp only [List.cons_append, List.append_assoc]
    rw [skipSpacing_minuses hline, skip_comment htext]
    exact ih

/-- What is put in is spacing. -/
theorem Filler.spaced (h : Filler gap) : Spaced gap := by
  cases h with
  | intro hc hgap => exact .blank hc hgap

/-- Spacing, kept or put in anew, is skipped up to the text after it. -/
theorem SpacedBefore.skipSpacing {gap' : List Char} (h : SpacedBefore gap s)
    (hgap : gap' = gap ∨ Filler gap') (hs' : tight s' = true) (hnil : s = [] → s' = []) :
    skipSpacing (gap' ++ s') = s' := by
  rcases hgap with rfl | hfiller
  · cases h with
    | closed hspaced => rw [skipSpacing_spaced hspaced, skipSpacing_of_tight hs']
    | openComment hspaced htext =>
      have hline := lineEndsWell_append htext (s := []) rfl
      rw [List.append_nil] at hline
      rw [hnil rfl, List.append_nil, skipSpacing_spaced hspaced, skipSpacing_minuses hline,
        skip_openComment htext]
  · rw [skipSpacing_spaced hfiller.spaced, skipSpacing_of_tight hs']

/-- Spacing begins with a blank or with a minus sign before another one. -/
theorem Spaced.exists_cons (h : Spaced gap) (hne : gap ≠ []) :
    ∃ c t, gap = c :: t ∧ (c ∈ " \t\n".toList ∨ c = '-' ∧ t.head? = some '-') := by
  cases h with
  | nil => exact absurd rfl hne
  | blank hc => exact ⟨_, _, rfl, .inl hc⟩
  | comment => exact ⟨_, _, rfl, .inr ⟨rfl, rfl⟩⟩

theorem SpacedBefore.exists_cons (h : SpacedBefore gap s) :
    ∃ c t, gap = c :: t ∧ (c ∈ " \t\n".toList ∨ c = '-' ∧ t.head? = some '-') := by
  cases h with
  | closed hspaced hne => exact hspaced.exists_cons hne
  | @openComment before text hspaced =>
    cases before with
    | nil => exact ⟨_, _, rfl, .inr ⟨rfl, rfl⟩⟩
    | cons c before =>
      obtain ⟨d, t, heq, hd⟩ := hspaced.exists_cons (List.cons_ne_nil c before)
      obtain ⟨rfl, rfl⟩ := List.cons.inj heq
      refine ⟨c, before ++ '-' :: '-' :: text, rfl, hd.imp_right fun ⟨hc, hhead⟩ => ⟨hc, ?_⟩⟩
      rw [List.head?_append, hhead, Option.some_or]

theorem SpacedBefore.not_tight (h : SpacedBefore gap s) (rest : List Char) :
    tight (gap ++ rest) = false := by
  obtain ⟨c, t, rfl, hc | ⟨rfl, hhead⟩⟩ := h.exists_cons
  · simp [tight, isSpacing_of_blank hc]
  · simp [tight, List.head?_append, hhead]

/-! ### Words keep their letters -/

/-- A class that none of some characters is in. -/
theorem eq_false_of_mem {p : Char → Bool} {chars : List Char}
    (hp : (chars.all fun c => !p c) = true) (h : c ∈ chars) : p c = false := by
  simpa using List.all_eq_true.mp hp c h

/-- What opens a literal or a name in brackets begins no word. -/
theorem isWordStart_of_opening (h : c ∈ "'\"#[".toList) : Text.isWordStart c = false :=
  eq_false_of_mem (by decide) h

/-- A reserved word is written in letters. -/
theorem isWordStart_of_isReserved {w : List Char} (h : isReserved (String.ofList w) = true) :
    ∀ c ∈ w, Text.isWordStart c = true := by
  have hletters : (reservedWords.all fun word => word.toList.all Char.isUpper) = true := by decide
  rw [isReserved, List.contains_iff_mem] at h
  have hupper := List.all_eq_true.mp hletters _ h
  rw [String.toUpper, String.toList_map, String.toList_ofList, List.all_eq_true] at hupper
  exact fun c hc => isWordStart_of_isUpper_toUpper (hupper _ (List.mem_map_of_mem hc))

/-- The upper case of a word decides whether it is reserved. -/
theorem isReserved_congr {w w' : List Char} (h : w'.map Char.toUpper = w.map Char.toUpper) :
    isReserved (String.ofList w') = isReserved (String.ofList w) := by
  have hupper : (String.ofList w').toUpper = (String.ofList w).toUpper := by
    rw [← String.toList_inj, String.toUpper, String.toUpper, String.toList_map, String.toList_map,
      String.toList_ofList, String.toList_ofList, h]
  rw [isReserved, isReserved, hupper]

theorem Recased.map_toUpper {w w' : List Char} (h : Recased w w') :
    w'.map Char.toUpper = w.map Char.toUpper := by
  rcases h with rfl | ⟨-, h⟩
  · rfl
  · exact h

theorem Recased.isWord {w w' : List Char} (h : Recased w w') (hw : Text.isWord w = true) :
    Text.isWord w' = true := by
  rcases h with rfl | ⟨hreserved, hupper⟩
  · exact hw
  · have hletters := isWordStart_of_isReserved ((isReserved_congr hupper).trans hreserved)
    cases w' with
    | nil =>
      obtain rfl : w = [] := by simpa using hupper.symm
      exact hw
    | cons c w' =>
      rw [List.forall_mem_cons] at hletters
      rw [Text.isWord, Bool.and_eq_true, List.all_eq_true]
      exact ⟨hletters.1, fun d hd => Text.isWordChar_of_isWordStart (hletters.2 d hd)⟩

/-! ### First characters -/

/-- A text begins where a word does. -/
theorem exists_cons_of_isWord {w : List Char} (h : Text.isWord w = true) (s : List Char) :
    ∃ c t, w ++ s = c :: t ∧ Text.isWordStart c = true := by
  obtain ⟨c, t, rfl, hc, -⟩ := Text.exists_of_isWord h
  exact ⟨c, t ++ s, rfl, hc⟩

theorem Verbatim.exists_cons {text : List Char} (h : Verbatim text s) :
    ∃ c t, text = c :: t ∧ c ∈ "'\"#[".toList := by
  cases h with
  | string hquote =>
    refine ⟨_, _, rfl, ?_⟩
    rcases hquote with rfl | rfl <;> decide
  | date | bracketed => exact ⟨_, _, rfl, by decide⟩

/-- How texts that are related begin: with nothing, with the same character, with spacing, or with
words. -/
theorem Relaid.first (h : Relaid s s') :
    s = [] ∧ s' = [] ∨ ∃ c t c' t', s = c :: t ∧ s' = c' :: t' ∧
      (c' = c ∨ c ∈ " \t\n-".toList ∧ c' ∈ " \t\n".toList ∨
        Text.isWordStart c = true ∧ Text.isWordStart c' = true) := by
  cases h with
  | kept =>
    cases s with
    | nil => exact .inl ⟨rfl, rfl⟩
    | cons c t => exact .inr ⟨c, t, c, t, rfl, rfl, .inl rfl⟩
  | spacing hgap hgap' =>
    obtain ⟨c, t, rfl, hc⟩ := hgap.exists_cons
    rcases hgap' with rfl | ⟨hc', -⟩
    · exact .inr ⟨c, _, c, _, rfl, rfl, .inl rfl⟩
    · refine .inr ⟨c, _, _, _, rfl, rfl, .inr (.inl ⟨?_, hc'⟩)⟩
      rcases hc with hc | ⟨rfl, -⟩
      · exact List.mem_append_left ['-'] hc
      · decide
  | word hw _ hcase =>
    obtain ⟨c, t, heq, hc⟩ := exists_cons_of_isWord hw _
    obtain ⟨c', t', heq', hc'⟩ := exists_cons_of_isWord (hcase.isWord hw) _
    exact .inr ⟨c, t, c', t', heq, heq', .inr (.inr ⟨hc, hc'⟩)⟩
  | verbatim htext =>
    obtain ⟨c, t, rfl, -⟩ := htext.exists_cons
    exact .inr ⟨c, _, c, _, rfl, rfl, .inl rfl⟩
  | lone => exact .inr ⟨_, _, _, _, rfl, rfl, .inl rfl⟩

theorem Relaid.eq_nil_iff (h : Relaid s s') : s' = [] ↔ s = [] := by
  rcases h.first with ⟨rfl, rfl⟩ | ⟨c, t, c', t', rfl, rfl, -⟩ <;> simp

/-- The first characters agree on every class that tells no letters apart and has neither blanks nor
the minus sign in it. -/
theorem Relaid.head?_any {p : Char → Bool} (letters : Bool) (h : Relaid s s')
    (hp : (" \t\n-".toList.all fun c => !p c) = true)
    (hletters : ∀ c, Text.isWordStart c = true → p c = letters) :
    s'.head?.any p = s.head?.any p := by
  have hblank (c : Char) (hc : c ∈ " \t\n-".toList) : p c = false := eq_false_of_mem hp hc
  rcases h.first with ⟨rfl, rfl⟩ | ⟨c, t, c', t', rfl, rfl, rfl | ⟨hc, hc'⟩ | ⟨hc, hc'⟩⟩
  · rfl
  · rfl
  · simp [hblank c hc, hblank c' (List.mem_append_left ['-'] hc')]
  · simp [hletters c hc, hletters c' hc']

/-- A delimiter comes first in both texts or in neither. -/
theorem Relaid.head?_eq_some_iff (h : Relaid s s') (hc : c ∈ "'\"#[".toList) :
    s'.head? = some c ↔ s.head? = some c := by
  have hblank :
      ("'\"#[".toList.all fun c => " \t\n-".toList.all fun d => !(d == c)) = true := by decide
  have hany : s'.head?.any (· == c) = s.head?.any (· == c) := by
    refine h.head?_any false (List.all_eq_true.mp hblank c hc) fun d hd => ?_
    rw [beq_eq_false_iff_ne]
    rintro rfl
    simp [isWordStart_of_opening hc] at hd
  have hfirst (s : List Char) : s.head? = some c ↔ s.head?.any (· == c) = true := by
    cases s <;> simp
  rw [hfirst, hfirst, hany]

/-- No minus sign comes to stand at the beginning. -/
theorem Relaid.head?_ne_minus (h : Relaid s s') (hs : s.head? ≠ some '-') :
    s'.head? ≠ some '-' := by
  rcases h.first with ⟨rfl, rfl⟩ | ⟨c, t, c', t', rfl, rfl, rfl | ⟨-, hc'⟩ | ⟨-, hc'⟩⟩
  · exact hs
  · exact hs
  · rintro ⟨⟩
    exact absurd hc' (by decide)
  · rintro ⟨⟩
    exact absurd hc' (by decide)

/-! ### Where a text is tight -/

/-- A character of a class that spacing and the minus sign are not in. -/
theorem tight_of_class {p : Char → Bool} (hp : (" \t\r\n-".toList.all fun d => !p d) = true)
    (h : p c = true) (s : List Char) : tight (c :: s) = true := by
  obtain ⟨hspacing, hminus⟩ := isSpacing_eq_false_of_class hp h
  exact tight_cons hspacing fun hc => absurd hc hminus

theorem tight_word {w : List Char} (h : Text.isWord w = true) (s : List Char) :
    tight (w ++ s) = true := by
  obtain ⟨c, t, heq, hc⟩ := exists_cons_of_isWord h s
  rw [heq]
  exact tight_of_class (by decide) hc t

theorem Verbatim.tight {text : List Char} (h : Verbatim text s) (rest : List Char) :
    tight (text ++ rest) = true := by
  obtain ⟨c, t, rfl, hc⟩ := h.exists_cons
  exact tight_of_class (p := fun c => "'\"#[".toList.contains c) (by decide)
    (List.contains_iff_mem.mpr hc) _

theorem SpacedBefore.tight (h : SpacedBefore gap s) : tight s = true := by
  cases h with
  | closed _ _ ht => exact ht
  | openComment => rfl

/-- A text before which nothing is to be skipped stays one. -/
theorem Relaid.tight (h : Relaid s s') (hs : tight s = true) : Grammar.tight s' = true := by
  cases h with
  | kept => exact hs
  | spacing hgap => simp [hgap.not_tight] at hs
  | word hw _ hcase => exact tight_word (hcase.isWord hw) _
  | verbatim htext => exact htext.tight _
  | @lone c s s' hlone _ h =>
    rw [Grammar.tight, Bool.and_eq_true, Bool.not_eq_true'] at hs
    refine tight_cons hs.1 fun hc => h.head?_ne_minus ?_
    simpa [hc] using hs.2

/-- **What is left after spacing is related again.** -/
theorem Relaid.skipSpacing (h : Relaid s s') :
    Relaid (Grammar.skipSpacing s) (Grammar.skipSpacing s') := by
  by_cases hs : Grammar.tight s = true
  · rwa [skipSpacing_of_tight hs, skipSpacing_of_tight (h.tight hs)]
  cases h with
  | kept => exact .kept _
  | spacing hgap hgap' h =>
    rw [hgap.skipSpacing (.inl rfl) hgap.tight id,
      hgap.skipSpacing hgap' (h.tight hgap.tight) h.eq_nil_iff.mpr]
    exact h
  | word hw => exact absurd (tight_word hw _) hs
  | verbatim htext => exact absurd (htext.tight _) hs
  | lone _ ht => exact absurd ht hs

/-! ### Digits and marks -/

/-- **A digit or a mark comes first in one of two texts if it does in the other**, and what follows
it is related. A minus sign must be none that opens a comment. -/
theorem Relaid.uncons (h : Relaid s s') (hc : isLone c = true)
    (hminus : c = '-' → Grammar.tight s = true) :
    (∃ t t', s = c :: t ∧ s' = c :: t' ∧ Relaid t t') ∨
      s.head? ≠ some c ∧ s'.head? ≠ some c := by
  obtain ⟨⟨hspacing, hstart⟩, hopens⟩ :
      (isSpacing c = false ∧ Text.isWordStart c = false) ∧ c ∉ "'\"#[".toList := by
    simpa [isLone] using hc
  by_cases hs : s.head? = some c
  · obtain ⟨t, rfl⟩ := List.head?_eq_some_iff.mp hs
    generalize hcons : c :: t = s at h hminus
    left
    cases h with
    | kept => exact ⟨t, t, hcons.symm, hcons.symm, .kept t⟩
    | spacing hgap =>
      obtain ⟨d, u, rfl, hd | ⟨rfl, -⟩⟩ := hgap.exists_cons
      · obtain ⟨rfl, -⟩ := List.cons.inj hcons
        simp [isSpacing_of_blank hd] at hspacing
      · obtain ⟨rfl, -⟩ := List.cons.inj hcons
        exact absurd ((hgap.not_tight _).symm.trans (hminus rfl)) Bool.false_ne_true
    | word hw =>
      obtain ⟨d, u, heq, hd⟩ := exists_cons_of_isWord hw _
      obtain ⟨rfl, -⟩ := List.cons.inj (hcons.trans heq)
      simp [hd] at hstart
    | verbatim htext =>
      obtain ⟨d, u, rfl, hd⟩ := htext.exists_cons
      obtain ⟨rfl, -⟩ := List.cons.inj hcons
      exact absurd hd hopens
    | lone _ _ h =>
      obtain ⟨rfl, rfl⟩ := List.cons.inj hcons
      exact ⟨_, _, rfl, rfl, h⟩
  · refine .inr ⟨hs, ?_⟩
    rcases h.first with ⟨rfl, rfl⟩ | ⟨d, t, d', t', rfl, rfl, rfl | ⟨-, hd⟩ | ⟨-, hd⟩⟩
    · exact hs
    · exact hs
    · rintro ⟨⟩
      simp [isSpacing_of_blank hd] at hspacing
    · rintro ⟨⟩
      simp [hd] at hstart

/-! ### Words and literals stand in both texts -/

/-- Where one text begins with a word, so does the other, with the same word but perhaps for its
case. -/
theorem Relaid.unword (h : Relaid s s') (hs : s.head?.any Text.isWordStart = true) :
    ∃ w w' t t', s = w ++ t ∧ s' = w' ++ t' ∧ Text.isWord w = true ∧
      t.head?.any Text.isWordChar = false ∧ Recased w w' ∧ Relaid t t' := by
  cases h with
  | kept =>
    cases s with
    | nil => simp at hs
    | cons c s =>
      obtain ⟨hcut, hall, hstop⟩ := takeWhile_eq_and_dropWhile_eq_iff.mp
        (⟨rfl, rfl⟩ : s.takeWhile Text.isWordChar = _ ∧ s.dropWhile Text.isWordChar = _)
      have hword : Text.isWord (c :: s.takeWhile Text.isWordChar) = true := by
        rw [Text.isWord, hall, Bool.and_true]
        simpa using hs
      have hcut : c :: s = (c :: s.takeWhile Text.isWordChar) ++ s.dropWhile Text.isWordChar := by
        rw [List.cons_append, ← hcut]
      exact ⟨_, _, _, _, hcut, hcut, hword, hstop, .inl rfl, .kept _⟩
  | spacing hgap =>
    obtain ⟨c, t, rfl, hc⟩ := hgap.exists_cons
    rw [List.cons_append, List.head?_cons, Option.any_some] at hs
    rcases hc with hc | ⟨rfl, -⟩
    · exact absurd (isSpacing_eq_false_of_class (by decide) hs).1 (by simp [isSpacing_of_blank hc])
    · exact absurd hs (by decide)
  | word hw hstop hcase h => exact ⟨_, _, _, _, rfl, rfl, hw, hstop, hcase, h⟩
  | verbatim htext =>
    obtain ⟨c, t, rfl, hc⟩ := htext.exists_cons
    simp [isWordStart_of_opening hc] at hs
  | lone hlone =>
    rw [List.head?_cons, Option.any_some] at hs
    simp [isLone, hs] at hlone

/-- Where a literal or a name in brackets may open, the text is kept from there on, or the whole
literal or name is. -/
theorem Relaid.unquote (h : Relaid s s') (hc : c ∈ "'\"#[".toList) (hs : s.head? = some c) :
    s' = s ∨ ∃ text t t', s = c :: text ++ t ∧ s' = c :: text ++ t' ∧ Verbatim (c :: text) t ∧
      Relaid t t' := by
  have hplain : isSpacing c = false ∧ c ≠ '-' :=
    isSpacing_eq_false_of_class (p := fun c => "'\"#[".toList.contains c) (by decide)
      (List.contains_iff_mem.mpr hc)
  cases h with
  | kept => exact .inl rfl
  | spacing hgap =>
    obtain ⟨d, t, rfl, hd⟩ := hgap.exists_cons
    obtain rfl : d = c := by simpa using hs
    rcases hd with hd | ⟨rfl, -⟩
    · simp [isSpacing_of_blank hd] at hplain
    · exact absurd rfl hplain.2
  | word hw =>
    obtain ⟨d, t, heq, hd⟩ := exists_cons_of_isWord hw _
    obtain rfl : d = c := Option.some.inj (by rwa [heq] at hs)
    simp [isWordStart_of_opening hc] at hd
  | verbatim htext h =>
    obtain ⟨d, t, rfl, -⟩ := htext.exists_cons
    obtain rfl : d = c := by simpa using hs
    exact .inr ⟨t, _, _, rfl, rfl, htext, h⟩
  | lone hlone =>
    obtain rfl := Option.some.inj hs
    have hopens : "'\"#[".toList.contains _ = true := List.contains_iff_mem.mpr hc
    rw [isLone, hopens, Bool.or_true] at hlone
    exact absurd hlone Bool.false_ne_true

/-! ### Carriage returns -/

theorem Spaced.not_mem (h : Spaced gap) : '\r' ∉ gap := by
  induction h with
  | nil => simp
  | blank hc _ ih =>
    rintro (_ | ⟨_, hmem⟩)
    · exact absurd hc (by decide)
    · exact ih hmem
  | @comment text gap htext _ ih =>
    have htext : '\r' ∉ text := fun hmem => by
      simpa using List.all_eq_true.mp htext _ hmem
    simp [htext, ih]

/-- No carriage return is put in. -/
theorem Relaid.not_mem (h : Relaid s s') (hs : '\r' ∉ s) : '\r' ∉ s' := by
  induction h with
  | kept => exact hs
  | spacing hgap hgap' _ ih =>
    rw [List.mem_append, not_or] at hs ⊢
    refine ⟨?_, ih hs.2⟩
    rcases hgap' with rfl | hfiller
    · exact hs.1
    · exact hfiller.spaced.not_mem
  | word hw _ hcase _ ih =>
    rw [List.mem_append, not_or] at hs ⊢
    refine ⟨fun hmem => ?_, ih hs.2⟩
    obtain ⟨c, w', rfl, hc, hall⟩ := Text.exists_of_isWord (hcase.isWord hw)
    rcases List.mem_cons.mp hmem with rfl | hmem
    · exact absurd hc (by decide)
    · exact absurd (List.all_eq_true.mp hall _ hmem) (by decide)
  | verbatim _ _ ih =>
    rw [List.mem_append, not_or] at hs ⊢
    exact ⟨hs.1, ih hs.2⟩
  | lone _ _ _ ih =>
    rw [List.mem_cons, not_or] at hs ⊢
    exact ⟨hs.1, ih hs.2⟩

end JetSql.Grammar
