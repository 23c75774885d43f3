/-
When readings succeed.

Every combinator of `Reader` has one lemma that says when it comes to a value: `bind_eq_ok` for one
reading after another, `orElse_eq_ok` for alternatives, and so on. `Listed` is a list with separators
between its items; what `separated1` and `separated0` find is such a list.
-/

import JetSql.Grammar.Statement

namespace JetSql.Grammar

open Reader

namespace Reader

variable {α β : Type} {s rest : List Char}

/-- A reader finds nothing, and another one may be tried. -/
def Misses (reader : Reader α) (s : List Char) : Prop :=
  ∃ left expected, reader s = .miss left expected

@[simp] theorem pure_eq_ok {value value' : α} :
    (pure value : Reader α) s = .ok value' rest ↔ value = value' ∧ s = rest := by
  simp [pure_apply]

@[simp] theorem bind_eq_ok {reader : Reader α} {next : α → Reader β} {value : β} :
    (reader >>= next) s = .ok value rest ↔
      ∃ first middle, reader s = .ok first middle ∧ next first middle = .ok value rest := by
  rw [bind_apply]
  cases reader s <;> simp [and_assoc]

@[simp] theorem seqRight_eq_ok {reader : Reader α} {next : Reader β} {value : β} :
    (reader *> next) s = .ok value rest ↔
      ∃ first middle, reader s = .ok first middle ∧ next middle = .ok value rest := by
  rw [seqRight_eq_bind, bind_eq_ok]

@[simp] theorem orElse_eq_ok {first second : Reader α} {value : α} :
    (first <|> second) s = .ok value rest ↔
      first s = .ok value rest ∨ first.Misses s ∧ second s = .ok value rest := by
  change (Reader.orElse first fun _ => second) s = _ ↔ _
  rw [Reader.orElse]
  cases hfirst : first s with
  | ok value' rest' => simp [Misses, hfirst]
  | halt error => simp [Misses, hfirst]
  | miss left expected =>
    cases hsecond : second s with
    | miss left' expected' =>
      simp only [Outcome.afterMiss]
      split <;> simp
    | _ => simp [Outcome.afterMiss, Misses, hfirst]

/-- Alternatives agree on two texts if each of them does. -/
theorem orElse_congr {first second : Reader α} {s' : List Char} (hfirst : first s = first s')
    (hsecond : second s = second s') : (first <|> second) s = (first <|> second) s' := by
  change Reader.orElse first (fun _ => second) s = Reader.orElse first (fun _ => second) s'
  simp only [Reader.orElse, hfirst, hsecond]

@[simp] theorem optional_eq_some {reader : Reader α} {value : α} :
    optional reader s = .ok (some value) rest ↔ reader s = .ok value rest := by
  rw [optional]
  cases reader s <;> simp

@[simp] theorem optional_eq_none {reader : Reader α} :
    optional reader s = .ok none rest ↔ reader.Misses s ∧ s = rest := by
  rw [optional, Misses]
  cases reader s <;> simp

@[simp] theorem expecting_eq_ok {expectation : Expectation} {reader : Reader α} {value : α} :
    expecting expectation reader s = .ok value rest ↔ reader s = .ok value rest := by
  rw [expecting]
  cases reader s with
  | miss left expected => cases expected <;> simp [Outcome.withExpectation]
  | _ => simp [Outcome.withExpectation]

@[simp] theorem satisfying_eq_ok {reader : Reader α} {test : α → Bool} {value : α} :
    satisfying reader test s = .ok value rest ↔ reader s = .ok value rest ∧ test value = true := by
  rw [satisfying]
  cases reader s with
  | ok value' rest' =>
    by_cases h : test value' = true
    · simp only [h, if_true, Outcome.ok.injEq]
      exact ⟨fun ⟨hvalue, hrest⟩ => ⟨⟨hvalue, hrest⟩, hvalue ▸ h⟩, And.left⟩
    · simp only [h, Bool.false_eq_true, if_false, Outcome.ok.injEq, reduceCtorEq, false_iff]
      rintro ⟨⟨rfl, -⟩, h'⟩
      exact h h'
  | _ => simp

@[simp] theorem char_eq_ok {c : Char} {value : Unit} :
    char c s = .ok value rest ↔ s = c :: rest := by
  rw [char.eq_def]
  cases s with
  | nil => simp
  | cons d s =>
    by_cases h : d = c <;> simp [h]

theorem not_halt_eq_ok {error : Error} {value : α} : halt error s ≠ .ok value rest := by
  simp [halt]

/-- A fixed text is found where it stands at the beginning. -/
theorem dropText?_eq_some {fixed : List Char} :
    dropText? fixed s = some rest ↔ s = fixed ++ rest := by
  induction fixed generalizing s with
  | nil => simp [dropText?]
  | cons c fixed ih =>
    cases s with
    | nil => simp [dropText?]
    | cons d s =>
      by_cases h : d = c <;> simp [dropText?, h, ih]

theorem exactly_eq_ok {fixed : String} {value : Unit} :
    exactly fixed s = .ok value rest ↔ s = fixed.toList ++ rest := by
  rw [exactly]
  cases h : dropText? fixed.toList s with
  | none =>
    simp only [reduceCtorEq, false_iff]
    intro hs
    simp [dropText?_eq_some.mpr hs] at h
  | some rest' =>
    have := dropText?_eq_some.mp h
    simp [this]

/-- A text that is found in any case is as long as the fixed one and the same up to case. -/
theorem dropTextNoCase?_eq_some {fixed : List Char} :
    dropTextNoCase? fixed s = some rest ↔
      ∃ written, s = written ++ rest ∧ written.map Char.toUpper = fixed := by
  induction fixed generalizing s with
  | nil => simp [dropTextNoCase?]
  | cons c fixed ih =>
    cases s with
    | nil => simp [dropTextNoCase?]
    | cons d s =>
      by_cases h : d.toUpper = c
      · simp only [dropTextNoCase?, h, if_true, ih]
        constructor
        · rintro ⟨written, rfl, rfl⟩
          exact ⟨d :: written, rfl, by simp [h]⟩
        · rintro ⟨written, hs, hw⟩
          cases written with
          | nil => simp at hw
          | cons d' written =>
            simp only [List.cons_append, List.cons.injEq, List.map_cons] at hs hw
            exact ⟨written, hs.2, hw.2⟩
      · simp only [dropTextNoCase?, h, if_false, reduceCtorEq, false_iff]
        rintro ⟨written, hs, hw⟩
        cases written with
        | nil => simp at hw
        | cons d' written =>
          simp only [List.cons_append, List.cons.injEq, List.map_cons] at hs hw
          exact h (hs.1 ▸ hw.1)

/-- The longest stretch of characters with a property is the one that none of them follows. -/
theorem takeWhile_eq_and_dropWhile_eq_iff {p : Char → Bool} {stretch : List Char} :
    s.takeWhile p = stretch ∧ s.dropWhile p = rest ↔
      s = stretch ++ rest ∧ stretch.all p = true ∧ rest.head?.any p = false := by
  constructor
  · rintro ⟨rfl, rfl⟩
    refine ⟨(List.takeWhile_append_dropWhile ..).symm, List.all_takeWhile, ?_⟩
    have := List.head?_dropWhile_not p s
    cases h : (s.dropWhile p).head? <;> simp_all
  · rintro ⟨rfl, hall, hrest⟩
    have hall := List.all_eq_true.mp hall
    rw [List.takeWhile_append_of_pos hall, List.dropWhile_append_of_pos hall]
    cases rest with
    | nil => simp
    | cons c rest => simp_all

theorem run1_eq_ok {p : Char → Bool} {value : List Char} :
    run1 p s = .ok value rest ↔
      (s = value ++ rest ∧ value.all p = true ∧ rest.head?.any p = false) ∧ value ≠ [] := by
  rw [← takeWhile_eq_and_dropWhile_eq_iff, run1]
  cases h : s.takeWhile p with
  | nil =>
    simp only [reduceCtorEq, false_iff]
    rintro ⟨⟨rfl, -⟩, hne⟩
    exact hne rfl
  | cons c cs =>
    simp only [Outcome.ok.injEq]
    exact ⟨fun ⟨hv, hr⟩ => ⟨⟨hv, hr⟩, hv ▸ List.cons_ne_nil c cs⟩, And.left⟩

theorem endOfText_eq_ok {value : Unit} : endOfText s = .ok value rest ↔ s = [] ∧ rest = [] := by
  cases s <;> simp [endOfText, eq_comm]

theorem found?_eq_some {outcome : Outcome (Option α)} {value : α} :
    outcome.found? = some (value, rest) ↔ outcome = .ok (some value) rest := by
  cases outcome with
  | ok found left => cases found <;> simp [Outcome.found?]
  | _ => simp [Outcome.found?]

/-- What the first of some readers finds, one of them does. -/
theorem exists_of_firstOf_eq_some {readers : List (Reader α)} {value : α}
    (h : (firstOf readers s).found? = some (value, rest)) :
    ∃ reader ∈ readers, reader s = .ok value rest := by
  rw [found?_eq_some] at h
  induction readers with
  | nil => simp [firstOf] at h
  | cons first readers ih =>
    rw [firstOf_cons] at h
    cases hfirst : first s with
    | ok value' rest' =>
      simp only [hfirst, Outcome.ok.injEq, Option.some.injEq] at h
      obtain ⟨rfl, rfl⟩ := h
      exact ⟨first, List.mem_cons_self, hfirst⟩
    | miss left expected =>
      rw [hfirst] at h
      obtain ⟨reader, hmem, hread⟩ := ih h
      exact ⟨reader, List.mem_cons_of_mem first hmem, hread⟩
    | halt error =>
      rw [hfirst] at h
      cases h

/-- If one of the first few readers succeeds, the first one that succeeds is among them. -/
theorem exists_of_firstOf_append {before after : List (Reader α)} {value found : α}
    {stop : List Char} {reader : Reader α} (hmem : reader ∈ before)
    (hreader : reader s = .ok found stop)
    (h : (firstOf (before ++ after) s).found? = some (value, rest)) :
    ∃ reader ∈ before, reader s = .ok value rest := by
  rw [found?_eq_some] at h
  induction before with
  | nil => cases hmem
  | cons first before ih =>
    rw [List.cons_append, firstOf_cons] at h
    cases hfirst : first s with
    | ok value' rest' =>
      simp only [hfirst, Outcome.ok.injEq, Option.some.injEq] at h
      obtain ⟨rfl, rfl⟩ := h
      exact ⟨first, List.mem_cons_self, hfirst⟩
    | miss left expected =>
      rw [hfirst] at h
      have hlater : reader ∈ before := by
        rcases List.mem_cons.mp hmem with rfl | hlater
        · rw [hreader] at hfirst
          cases hfirst
        · exact hlater
      obtain ⟨reader', hmem', hread⟩ := ih hlater h
      exact ⟨reader', List.mem_cons_of_mem first hmem', hread⟩
    | halt error =>
      rw [hfirst] at h
      cases h

end Reader

/-! ### Tokens -/

section Tokens

variable {s rest : List Char}

theorem skip_skip (inComment : Bool) (s : List Char) :
    skip false (skip inComment s) = skip inComment s := by
  fun_induction skip inComment s with
  | case1 => rfl
  | case5 inComment c rest hcomment hspacing hminus =>
    rw [skip, if_neg (by simp), if_neg hspacing, if_neg hminus]
  | _ => assumption

@[simp] theorem skipSpacing_skipSpacing (s : List Char) : skipSpacing (skipSpacing s) = skipSpacing s :=
  skip_skip false s

/-- What is skipped stands before what is left. -/
theorem skip_suffix (inComment : Bool) (s : List Char) : skip inComment s <:+ s := by
  fun_induction skip inComment s with
  | case1 | case5 => exact List.suffix_rfl
  | _ => exact List.IsSuffix.trans ‹_› (List.suffix_cons ..)

theorem length_skip_le (inComment : Bool) (s : List Char) : (skip inComment s).length ≤ s.length :=
  (skip_suffix inComment s).length_le

@[simp] theorem spacing_eq_ok {value : Unit} :
    spacing s = .ok value rest ↔ skipSpacing s = rest := by
  simp [spacing]

@[simp] theorem symbol_eq_ok {mark : String} {value : Unit} :
    symbol mark s = .ok value rest ↔ skipSpacing s = mark.toList ++ rest := by
  simp [symbol, exactly_eq_ok]

theorem keyword_eq_ok {word : String} {value : Unit} :
    keyword word s = .ok value rest ↔
      (∃ written, skipSpacing s = written ++ rest ∧ written.map Char.toUpper = word.toList) ∧
        rest.head?.any Text.isWordChar = false := by
  rw [keyword]
  cases h : dropTextNoCase? word.toList (skipSpacing s) with
  | none =>
    have hnot : ¬ ∃ written, skipSpacing s = written ++ rest ∧
        written.map Char.toUpper = word.toList := by
      intro hw
      simp [dropTextNoCase?_eq_some.mpr hw] at h
    cases splitsCharacter word.toList (skipSpacing s) <;> simp [hnot]
  | some rest' =>
    by_cases hrest : rest'.head?.any Text.isWordChar = true
    · simp only [hrest, if_true, reduceCtorEq, false_iff, not_and]
      intro hw
      have := (dropTextNoCase?_eq_some.mpr hw).symm.trans h
      cases this
      simpa using hrest
    · simp only [hrest, Bool.false_eq_true, if_false, Outcome.ok.injEq, true_and]
      constructor
      · rintro rfl
        exact ⟨dropTextNoCase?_eq_some.mp h, by simpa using hrest⟩
      · rintro ⟨hw, -⟩
        exact Option.some.inj (h.symm.trans (dropTextNoCase?_eq_some.mpr hw))

end Tokens

/-! ### Lists -/

section Lists

variable {α : Type} {separator : Reader Unit} {reader : Reader α} {s rest : List Char}

/-- Items one after another with separators between them, at least one. -/
inductive Listed (separator : Reader Unit) (item : List Char → α → List Char → Prop) :
    List Char → List α → List Char → Prop where
  | last {s rest : List Char} {value : α} :
      item s value rest → Listed separator item s [value] rest
  | cons {s middle next rest : List Char} {value : α} {values : List α} :
      item s value middle → separator middle = .ok () next →
        Listed separator item next values rest → Listed separator item s (value :: values) rest

theorem Listed.imp {item item' : List Char → α → List Char → Prop} {values : List α}
    (himp : ∀ s value rest, item s value rest → item' s value rest)
    (h : Listed separator item s values rest) : Listed separator item' s values rest := by
  induction h with
  | last hitem => exact .last (himp _ _ _ hitem)
  | cons hitem hsep _ ih => exact .cons (himp _ _ _ hitem) hsep ih

/-- What holds of every item that can be read holds of the items of a list. -/
theorem Listed.forall_mem {item : List Char → α → List Char → Prop} {values : List α}
    {p : α → Prop} (h : Listed separator item s values rest)
    (hitem : ∀ s value rest, item s value rest → p value) : ∀ value ∈ values, p value := by
  induction h with
  | last h => simpa using hitem _ _ _ h
  | cons h _ _ ih => exact List.forall_mem_cons.mpr ⟨hitem _ _ _ h, ih⟩

theorem Listed.ne_nil {item : List Char → α → List Char → Prop} {values : List α}
    (h : Listed separator item s values rest) : values ≠ [] := by
  cases h <;> simp

theorem listed_of_furtherItems {n : Nat} {value : α} {values : List α} {middle : List Char}
    (hvalue : reader s = .ok value middle)
    (h : furtherItems separator reader n middle = .ok values rest) :
    Listed separator (fun s value rest => reader s = .ok value rest) s (value :: values) rest := by
  induction n generalizing s value values middle with
  | zero =>
    simp only [furtherItems, pure_eq_ok] at h
    obtain ⟨rfl, rfl⟩ := h
    exact .last hvalue
  | succ n ih =>
    simp only [furtherItems, bind_eq_ok] at h
    obtain ⟨found, middle', hfound, h⟩ := h
    cases found with
    | none =>
      simp only [optional_eq_none, pure_eq_ok] at hfound h
      obtain ⟨rfl, rfl⟩ := h
      obtain ⟨-, rfl⟩ := hfound
      exact .last hvalue
    | some next =>
      simp only [optional_eq_some, seqRight_eq_ok, bind_eq_ok, pure_eq_ok] at hfound h
      obtain ⟨⟨⟩, start, hsep, hnext⟩ := hfound
      obtain ⟨values, rest', hvalues, rfl, rfl⟩ := h
      exact .cons hvalue hsep (ih hnext hvalues)

/-- What a list reader finds is a list. -/
theorem listed_of_separated1 {values : List α} (h : separated1 separator reader s = .ok values rest) :
    Listed separator (fun s value rest => reader s = .ok value rest) s values rest := by
  obtain ⟨value, middle, hvalue, h⟩ := bind_eq_ok.mp h
  obtain ⟨values', rest', hvalues, h⟩ := bind_eq_ok.mp h
  obtain ⟨rfl, rfl⟩ := pure_eq_ok.mp h
  exact listed_of_furtherItems hvalue hvalues

theorem listed_of_separated0 {values : List α} (h : separated0 separator reader s = .ok values rest) :
    (values = [] ∧ s = rest) ∨
      Listed separator (fun s value rest => reader s = .ok value rest) s values rest := by
  simp only [separated0, bind_eq_ok] at h
  obtain ⟨found, middle, hfound, h⟩ := h
  cases found with
  | none =>
    simp only [optional_eq_none, pure_eq_ok] at hfound h
    obtain ⟨-, rfl⟩ := hfound
    exact .inl ⟨h.1.symm, h.2⟩
  | some value =>
    simp only [optional_eq_some, bind_eq_ok, pure_eq_ok] at hfound h
    obtain ⟨values, rest', hvalues, rfl, rfl⟩ := h
    exact .inr (listed_of_furtherItems hfound hvalues)

end Lists

end JetSql.Grammar
