/-
Which source patterns have a target form.

A pattern is read from what the targets put between single quotes, where every single quote is
doubled, and not from the text that the literal denotes. Outside brackets this comes to the same: a
plain quote is read as two. In a bracket the quote counts as two characters, and a bracket with two
characters in it has no target form.

* **`read_double_eq_ok`:** what is read from a text whose quotes are doubled.
* **`patternText_eq_ok`:** the target form of a literal, told by the pattern that the literal
  denotes.
* **`exists_patternText_iff`:** which literals have a target form.
-/

import JetSql.Proofs.Grammar.Leaf
import JetSql.Proofs.Pattern.Matching
import JetSql.Proofs.Renderer.Success

namespace JetSql

namespace Pattern

open Renderer (bind_eq_ok pure_eq_ok)

variable {text : List Char} {pattern : Pattern}

/-- A character that stands alone in a bracket, also where single quotes are doubled. -/
def Bracketable (c : Char) : Prop :=
  c ≠ ']' ∧ c ≠ '\''

/-- An element where single quotes are doubled. -/
def doubled (wildcard : Wildcard) : Pattern :=
  if wildcard = .exactly '\'' then [wildcard, wildcard] else [wildcard]

theorem read_plain {c : Char} (hc : c ∉ "*?#[".toList) (text : List Char) :
    read (c :: text) = do return .exactly c :: (← read text) := by
  rw [read]
  all_goals
    intros
    subst c
    exact absurd (by decide) hc

theorem read_bracketed {c : Char} (hc : c ≠ ']') (text : List Char) :
    read ('[' :: c :: ']' :: text) = do return .exactly c :: (← read text) := by
  rw [read, if_neg hc]

/-- Where the quotes of a text are doubled, its pattern is read with its quotes doubled. -/
theorem read_double (h : Denotes Bracketable text pattern) :
    read (Text.double '\'' text) = .ok (pattern.flatMap doubled) := by
  induction h with
  | nil => rfl
  | anyText _ ih =>
    rw [Text.double, if_neg (by decide), read, ih]
    rfl
  | anyChar _ ih =>
    rw [Text.double, if_neg (by decide), read, ih]
    rfl
  | @bracketed c text pattern hc _ ih =>
    have hdouble : Text.double '\'' ('[' :: c :: ']' :: text) =
        '[' :: c :: ']' :: Text.double '\'' text := by
      simp [Text.double, hc.2]
    have hone : doubled (.exactly c) = [.exactly c] := by simp [doubled, hc.2]
    rw [hdouble, read_bracketed hc.1, ih, List.flatMap_cons, hone]
    rfl
  | @plain c text pattern hc _ ih =>
    by_cases hquote : c = '\''
    · subst hquote
      rw [Text.double, if_pos rfl, read_plain hc, read_plain hc, ih, List.flatMap_cons]
      rfl
    · have hone : doubled (.exactly c) = [.exactly c] := by simp [doubled, hquote]
      rw [Text.double, if_neg hquote, read_plain hc, ih, List.flatMap_cons, hone]
      rfl

theorem read_list {text : List Char} (h : text.tail.head? ≠ some ']') :
    read ('[' :: text) = .error .characterList := by
  rw [read]
  rintro c rest rfl
  exact h rfl

/-- A bracket is read where single quotes are doubled only if it holds one character. -/
theorem exists_of_read_double_bracket {found : Pattern}
    (h : read ('[' :: Text.double '\'' text) = .ok found) :
    ∃ c rest more, text = c :: ']' :: rest ∧ Bracketable c ∧
      read (Text.double '\'' rest) = .ok more := by
  by_cases hclosed : (Text.double '\'' text).tail.head? = some ']'
  · cases text with
    | nil => cases hclosed
    | cons c text =>
      have hc : c ≠ '\'' := by
        rintro rfl
        cases hclosed
      rw [Text.double, if_neg hc] at h hclosed
      cases text with
      | nil => cases hclosed
      | cons d text =>
        obtain rfl : d = ']' := by
          rw [Text.double] at hclosed
          split at hclosed <;> exact Option.some.inj hclosed
        rw [Text.double, if_neg (by decide)] at h
        by_cases hbracket : c = ']'
        · rw [read, if_pos hbracket] at h
          cases h
        · rw [read_bracketed hbracket, bind_eq_ok] at h
          obtain ⟨more, hmore, -⟩ := h
          exact ⟨c, text, more, rfl, ⟨hbracket, hc⟩, hmore⟩
  · rw [read_list hclosed] at h
    cases h

/-- Outside brackets one character after another is read, and none is the wildcard for a digit. -/
theorem exists_of_read_cons {c : Char} {found : Pattern} (hc : c ≠ '[')
    (h : read (c :: text) = .ok found) : c ≠ '#' ∧ ∃ more, read text = .ok more := by
  by_cases hspecial : c ∈ "*?#[".toList
  · have hcases : c = '*' ∨ c = '?' ∨ c = '#' ∨ c = '[' := by simpa using hspecial
    rcases hcases with rfl | rfl | rfl | rfl
    · rw [read, bind_eq_ok] at h
      exact ⟨by decide, h.imp fun _ => And.left⟩
    · rw [read, bind_eq_ok] at h
      exact ⟨by decide, h.imp fun _ => And.left⟩
    · cases h
    · exact absurd rfl hc
  · rw [read_plain hspecial, bind_eq_ok] at h
    refine ⟨?_, h.imp fun _ => And.left⟩
    rintro rfl
    exact absurd (by decide) hspecial

theorem exists_of_read_double_cons {c : Char} {found : Pattern} (hc : c ≠ '[')
    (h : read (Text.double '\'' (c :: text)) = .ok found) :
    c ≠ '#' ∧ ∃ more, read (Text.double '\'' text) = .ok more := by
  rw [Text.double] at h
  split at h
  · obtain ⟨hdigit, more, hmore⟩ := exists_of_read_cons hc h
    exact ⟨hdigit, (exists_of_read_cons hc hmore).2⟩
  · exact exists_of_read_cons hc h

/-- A text is read with its quotes doubled only if it denotes a pattern whose brackets hold no
quote. -/
theorem exists_denotes_of_read_double {found : Pattern}
    (h : read (Text.double '\'' text) = .ok found) :
    ∃ pattern, Denotes Bracketable text pattern := by
  induction hn : text.length using Nat.strongRecOn generalizing text found with
  | ind n ih =>
    cases text with
    | nil => exact ⟨[], .nil⟩
    | cons c text =>
      rw [List.length_cons] at hn
      by_cases hbracket : c = '['
      · subst hbracket
        rw [Text.double, if_neg (by decide)] at h
        obtain ⟨c, rest, more, rfl, hc, hmore⟩ := exists_of_read_double_bracket h
        obtain ⟨pattern, hpattern⟩ := ih rest.length (by simp at hn; omega) hmore rfl
        exact ⟨_, hpattern.bracketed hc⟩
      · obtain ⟨hdigit, more, hmore⟩ := exists_of_read_double_cons hbracket h
        obtain ⟨pattern, hpattern⟩ := ih text.length (by omega) hmore rfl
        by_cases htext : c = '*'
        · subst htext
          exact ⟨_, hpattern.anyText⟩
        by_cases hchar : c = '?'
        · subst hchar
          exact ⟨_, hpattern.anyChar⟩
        exact ⟨_, hpattern.plain (by simp [htext, hchar, hdigit, hbracket])⟩

/-- **What is read from a text whose quotes are doubled is the pattern that the text denotes, with its
quotes doubled.** -/
theorem read_double_eq_ok {found : Pattern} :
    read (Text.double '\'' text) = .ok found ↔
      ∃ pattern, Denotes Bracketable text pattern ∧ found = pattern.flatMap doubled := by
  constructor
  · intro h
    obtain ⟨pattern, hpattern⟩ := exists_denotes_of_read_double h
    exact ⟨pattern, hpattern, Except.ok.inj (h.symm.trans (read_double hpattern))⟩
  · rintro ⟨pattern, hpattern, rfl⟩
    exact read_double hpattern

end Pattern

variable {value text : String} {quote : Char}

/-- The targets write what a literal denotes, with its single quotes doubled. -/
theorem stringBody_eq_double (h : (Literal.string value quote).Formed) :
    stringBody value quote = Text.double '\'' (Text.undouble quote value.toList) := by
  rw [stringBody]
  split
  · rename_i hquote
    rw [hquote]
  · rename_i hquote
    obtain rfl := h.1.resolve_right hquote
    rw [Text.double_undouble h.2]

/-- **A pattern is translated if it denotes one whose brackets hold no single quote.** -/
theorem patternText_eq_ok (h : (Literal.string value quote).Formed) :
    patternText value quote = .ok text ↔
      ∃ pattern, Pattern.Denotes Pattern.Bracketable (Text.undouble quote value.toList) pattern ∧
        text = Pattern.write (pattern.flatMap Pattern.doubled) := by
  rw [patternText, stringBody_eq_double h]
  constructor
  · intro htext
    split at htext
    · rename_i found hfound
      obtain ⟨pattern, hpattern, rfl⟩ := Pattern.read_double_eq_ok.mp hfound
      exact ⟨pattern, hpattern, (Except.ok.inj htext).symm⟩
    · cases htext
  · rintro ⟨pattern, hpattern, rfl⟩
    simp only [Pattern.read_double hpattern]

/-- **A pattern literal has a target form exactly if it denotes a sequence of wildcards, plain
characters and brackets around one character that is no single quote; and any other one is refused
as inexpressible.** -/
theorem exists_patternText_iff (h : (Literal.string value quote).Formed) :
    ((∃ text, patternText value quote = .ok text) ↔
      ∃ pattern, Pattern.Denotes Pattern.Bracketable (Text.undouble quote value.toList) pattern) ∧
    ∀ error, patternText value quote = .error error →
      ∃ body fault, error = .inexpressible body fault := by
  refine ⟨?_, fun error herror => ?_⟩
  · simp only [patternText_eq_ok h]
    constructor
    · rintro ⟨text, pattern, hpattern, -⟩
      exact ⟨pattern, hpattern⟩
    · rintro ⟨pattern, hpattern⟩
      exact ⟨_, pattern, hpattern, rfl⟩
  · rw [patternText] at herror
    split at herror
    · cases herror
    · exact ⟨_, _, (Except.error.inj herror).symm⟩

/-- `a[*]"`, where the double quote is doubled. -/
theorem exists_patternText_iff_bracketed :
    (Literal.string "a[*]\"\"" '"').Formed ∧
      ((∃ text, patternText "a[*]\"\"" '"' = .ok text) ↔
        ∃ pattern, Pattern.Denotes Pattern.Bracketable
          (Text.undouble '"' "a[*]\"\"".toList) pattern) ∧
      ∀ error, patternText "a[*]\"\"" '"' = .error error →
        ∃ body fault, error = .inexpressible body fault := by
  have hformed : (Literal.string "a[*]\"\"" '"').Formed := ⟨.inr rfl, by decide⟩
  exact ⟨hformed, exists_patternText_iff hformed⟩

/-- A bracket around a single quote is a bracket around one character, but it is refused. -/
theorem patternText_bracketed_quote :
    (Literal.string "['']" '\'').Formed ∧
      (∃ pattern, Pattern.Denotes (· ≠ ']') (Text.undouble '\'' "['']".toList) pattern) ∧
      patternText "['']" '\'' = .error (.inexpressible "['']" .characterList) := by
  have hdenotes : Pattern.Denotes (· ≠ ']') (Text.undouble '\'' "['']".toList) [.exactly '\''] :=
    .bracketed (by decide) .nil
  exact ⟨⟨.inl rfl, by decide⟩, ⟨_, hdenotes⟩, by decide⟩

end JetSql
