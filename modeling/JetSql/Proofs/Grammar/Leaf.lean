/-
Names and literals, and how they stand in a source text.

`Part.Formed` and `Literal.Formed` say which names and literals can be written, and `source` writes
them. The readers of names find a text exactly where such a name stands and the text goes on with
something else: `name_eq_ok`, `part_eq_ok`.

* **`formed_of_parts`, `formed_of_literal`:** whatever is read can be written.
-/

import JetSql.Proofs.Grammar.Misses
import JetSql.Proofs.Text.Paired
import JetSql.Proofs.Text.Trimmed

namespace JetSql

open Grammar

/-- A bare name: one word, and none of the reserved ones. -/
def IsName (word : String) : Prop :=
  Text.isWord word.toList = true ∧ isReserved word = false

/-- A word is not empty, and begins with a character that a word may begin with. -/
theorem Text.exists_of_isWord {cs : List Char} (h : isWord cs = true) :
    ∃ c rest, cs = c :: rest ∧ isWordStart c = true ∧ rest.all isWordChar = true := by
  cases cs with
  | nil => simp [isWord] at h
  | cons c rest =>
    rw [isWord, Bool.and_eq_true] at h
    exact ⟨c, rest, rfl, h⟩

theorem IsName.head?_ne {w : String} (h : IsName w) {c : Char} (hc : Text.isWordStart c = false)
    (rest : List Char) : (w.toList ++ rest).head? ≠ some c := by
  obtain ⟨d, cs, hw, hd, -⟩ := Text.exists_of_isWord h.1
  rw [hw]
  rintro ⟨⟩
  simp [hc] at hd

/-- A character that may stand in brackets. -/
def isBracketed (c : Char) : Bool :=
  c != ']' && c != '\n'

/-- A part of a name that can be written: a bare name, or any text on one line in brackets. -/
def Part.Formed : Part → Prop
  | ⟨name, true⟩ => name.toList.all isBracketed = true ∧ name.toList ≠ []
  | ⟨name, false⟩ => IsName name

/-- A part of a name as it is written. -/
def Part.source : Part → List Char
  | ⟨name, true⟩ => '[' :: (name.toList ++ [']'])
  | ⟨name, false⟩ => name.toList

/-- Digits, and perhaps a point and more digits. -/
inductive IsNumber : List Char → Prop where
  | whole {digits : List Char} :
      digits ≠ [] → digits.all Char.isDigit = true → IsNumber digits
  | fraction {digits decimals : List Char} :
      digits ≠ [] → digits.all Char.isDigit = true → decimals ≠ [] →
        decimals.all Char.isDigit = true → IsNumber (digits ++ '.' :: decimals)

/-- A character that may stand between number signs. -/
def isDated (c : Char) : Bool :=
  c != '#' && c != '\n'

/-- A literal that can be written. -/
def Literal.Formed : Literal → Prop
  | .string value quote =>
    (quote = '\'' ∨ quote = '"') ∧ Text.paired quote value.toList = true
  | .number text => IsNumber text.toList
  | .bool _ | .null => True
  | .date text => text.toList.all isDated = true ∧ Text.trim text.toList = text.toList

/-- A literal as it is written. A date stands after a blank, since there may be nothing in it. -/
def Literal.source : Literal → List Char
  | .string value quote => quote :: (value.toList ++ [quote])
  | .number text => text.toList
  | .bool true => "TRUE".toList
  | .bool false => "FALSE".toList
  | .null => "NULL".toList
  | .date text => '#' :: ' ' :: (text.toList ++ ['#'])

namespace Grammar

open Reader

variable {s rest : List Char}

/-! ### Names -/

theorem word_eq_ok {w : String} :
    word s = .ok w rest ↔
      s = w.toList ++ rest ∧ Text.isWord w.toList = true ∧
        rest.head?.any Text.isWordChar = false := by
  rw [word.eq_def]
  cases s with
  | nil =>
    simp only [reduceCtorEq, false_iff]
    rintro ⟨hs, hw, -⟩
    simp [(List.nil_eq_append_iff.mp hs).1, Text.isWord] at hw
  | cons c s =>
    by_cases hc : Text.isWordStart c = true
    · simp only [hc, if_true, Outcome.ok.injEq]
      constructor
      · rintro ⟨rfl, hrest⟩
        obtain ⟨hs, hall, hstop⟩ := takeWhile_eq_and_dropWhile_eq_iff.mp ⟨rfl, hrest⟩
        simpa [Text.isWord, hc, hall, hstop] using hs
      · rintro ⟨hs, hw, hstop⟩
        obtain ⟨d, ds, hwl, -, hall⟩ := Text.exists_of_isWord hw
        rw [hwl, List.cons_append, List.cons.injEq] at hs
        obtain ⟨rfl, hs⟩ := hs
        obtain ⟨htake, hdrop⟩ := takeWhile_eq_and_dropWhile_eq_iff.mpr ⟨hs, hall, hstop⟩
        rw [htake, hdrop, ← hwl, String.ofList_toList]
        exact ⟨rfl, rfl⟩
    · simp only [hc, Bool.false_eq_true, if_false, reduceCtorEq, false_iff]
      rintro ⟨hs, hw, -⟩
      obtain ⟨d, ds, hwl, hd, -⟩ := Text.exists_of_isWord hw
      rw [hwl, List.cons_append, List.cons.injEq] at hs
      exact hc (hs.1 ▸ hd)

theorem name_eq_ok {w : String} :
    name s = .ok w rest ↔
      s = w.toList ++ rest ∧ IsName w ∧ rest.head?.any Text.isWordChar = false := by
  simp only [name, satisfying_eq_ok, word_eq_ok, IsName, Bool.not_eq_true']
  constructor
  · rintro ⟨⟨hs, hw, hrest⟩, hres⟩
    exact ⟨hs, ⟨hw, hres⟩, hrest⟩
  · rintro ⟨hs, ⟨hw, hres⟩, hrest⟩
    exact ⟨⟨hs, hw, hrest⟩, hres⟩

theorem bracketedName_eq_ok {w : String} :
    bracketedName s = .ok w rest ↔
      s = '[' :: (w.toList ++ ']' :: rest) ∧ w.toList.all isBracketed = true ∧ w.toList ≠ [] := by
  simp only [bracketedName, bind_eq_ok, char_eq_ok, run1_eq_ok, pure_eq_ok]
  constructor
  · rintro ⟨⟨⟩, _, rfl, body, _, ⟨⟨rfl, hall, -⟩, hne⟩, ⟨⟩, _, rfl, rfl, rfl⟩
    simpa using ⟨by simpa [isBracketed] using hall, hne⟩
  · rintro ⟨rfl, hall, hne⟩
    exact ⟨(), _, rfl, w.toList, _, ⟨⟨rfl, hall, by simp⟩, hne⟩, (), _, rfl, by simp, rfl⟩

theorem part_eq_ok {p : Part} :
    part s = .ok p rest ↔
      skipSpacing s = p.source ++ rest ∧ p.Formed ∧
        (p.bracketed = false → rest.head?.any Text.isWordChar = false) := by
  simp only [part, bind_eq_ok, spacing_eq_ok, orElse_eq_ok, pure_eq_ok, bracketedName_eq_ok,
    name_eq_ok]
  constructor
  · rintro ⟨⟨⟩, _, rfl, ⟨w, _, ⟨hs, hformed⟩, rfl, rfl⟩ |
      ⟨-, w, _, ⟨hs, hformed, hrest⟩, rfl, rfl⟩⟩
    · exact ⟨by simp [hs, Part.source], hformed, by simp⟩
    · exact ⟨hs, hformed, fun _ => hrest⟩
  · rintro ⟨hs, hformed, hrest⟩
    refine ⟨(), _, rfl, ?_⟩
    obtain ⟨w, _ | _⟩ := p
    · refine .inr ⟨?_, w, rest, ⟨hs, hformed, hrest rfl⟩, rfl, rfl⟩
      rw [bind_misses, bracketedName, bind_misses, char_misses, hs]
      exact .inl (.inl (hformed.head?_ne (by decide) rest))
    · exact .inl ⟨w, rest, ⟨by simpa [Part.source] using hs, hformed⟩, rfl, rfl⟩

/-- The parts of a dotted name that was read can be written. -/
theorem formed_of_parts {names : List Part} (h : parts s = .ok names rest) :
    names ≠ [] ∧ ∀ p ∈ names, p.Formed := by
  simp only [parts, bind_eq_ok] at h
  obtain ⟨⟨⟩, _, -, h⟩ := h
  have hlisted := listed_of_separated1 h
  exact ⟨hlisted.ne_nil, hlisted.forall_mem fun _ _ _ h => (part_eq_ok.mp h).2.1⟩

/-! ### Literals -/

theorem stringLiteral_eq_ok {quote : Char} {value : Literal} :
    stringLiteral quote s = .ok value rest ↔
      ∃ body, value = .string (String.ofList body) quote ∧ s = quote :: (body ++ quote :: rest) ∧
        Text.paired quote body = true ∧ rest.head? ≠ some quote := by
  constructor
  · intro h
    obtain ⟨⟨⟩, start, hopen, h⟩ := bind_eq_ok.mp h
    obtain ⟨body, middle, hbody, h⟩ := bind_eq_ok.mp h
    obtain ⟨⟨⟩, stop, hclose, h⟩ := bind_eq_ok.mp h
    obtain ⟨rfl, rfl⟩ := pure_eq_ok.mp h
    obtain ⟨rfl, rfl⟩ := Outcome.ok.inj hbody
    rw [char_eq_ok] at hopen hclose
    have hs := Text.splitBody_append quote start
    rw [hclose] at hs
    exact ⟨_, rfl, by rw [hopen, hs], Text.paired_splitBody start, Text.head?_ne_of_splitBody hclose⟩
  · rintro ⟨body, rfl, rfl, hpaired, hrest⟩
    have hsplit := Text.splitBody_of_paired hpaired hrest
    refine bind_eq_ok.mpr ⟨(), _, char_eq_ok.mpr rfl, bind_eq_ok.mpr ⟨body, quote :: rest, ?_, ?_⟩⟩
    · simp [hsplit]
    · exact bind_eq_ok.mpr ⟨(), rest, char_eq_ok.mpr rfl, rfl⟩

theorem dateLiteral_eq_ok {value : Literal} :
    dateLiteral s = .ok value rest ↔
      ∃ body, value = .date (String.ofList (Text.trim body)) ∧ s = '#' :: (body ++ '#' :: rest) ∧
        body.all isDated = true ∧ body ≠ [] := by
  simp only [dateLiteral, bind_eq_ok, char_eq_ok, run1_eq_ok, pure_eq_ok]
  constructor
  · rintro ⟨⟨⟩, _, rfl, body, _, ⟨⟨rfl, hall, -⟩, hne⟩, ⟨⟩, _, rfl, rfl, rfl⟩
    exact ⟨body, rfl, rfl, hall, hne⟩
  · rintro ⟨body, rfl, rfl, hall, hne⟩
    exact ⟨(), _, rfl, body, _, ⟨⟨rfl, hall, by simp⟩, hne⟩, (), _, rfl, rfl, rfl⟩

theorem isNumber_of_numberLiteral {value : Literal} (h : numberLiteral s = .ok value rest) :
    ∃ text, value = .number (String.ofList text) ∧ s = text ++ rest ∧ IsNumber text := by
  simp only [numberLiteral, bind_eq_ok, run1_eq_ok, pure_eq_ok] at h
  obtain ⟨digits, middle, ⟨⟨rfl, hdigits, -⟩, hne⟩, fraction, _, hfraction, rfl, rfl⟩ := h
  cases fraction with
  | none =>
    obtain ⟨-, rfl⟩ := optional_eq_none.mp hfraction
    exact ⟨digits, rfl, rfl, .whole hne hdigits⟩
  | some decimals =>
    simp only [optional_eq_some, seqRight_eq_ok, char_eq_ok, run1_eq_ok] at hfraction
    obtain ⟨⟨⟩, _, rfl, ⟨rfl, hdecimals, -⟩, hne'⟩ := hfraction
    exact ⟨_, rfl, by simp, .fraction hne hdigits hne' hdecimals⟩

/-- A literal that was read can be written. -/
theorem formed_of_literal {node : Node} (h : literal s = .ok node rest) :
    ∃ value, node = .literal value ∧ value.Formed := by
  simp only [literal, bind_eq_ok, orElse_eq_ok, seqRight_eq_ok, pure_eq_ok] at h
  obtain ⟨⟨⟩, start, -, value, middle, hvalue, rfl, rfl⟩ := h
  refine ⟨value, rfl, ?_⟩
  rcases hvalue with h | ⟨-, h | ⟨-, h | ⟨-, h | ⟨-, h | ⟨-, h | ⟨-, h⟩⟩⟩⟩⟩⟩
  · obtain ⟨body, rfl, -, hpaired, -⟩ := stringLiteral_eq_ok.mp h
    exact ⟨.inl rfl, by simpa using hpaired⟩
  · obtain ⟨body, rfl, -, hpaired, -⟩ := stringLiteral_eq_ok.mp h
    exact ⟨.inr rfl, by simpa using hpaired⟩
  · obtain ⟨body, rfl, -, hall, -⟩ := dateLiteral_eq_ok.mp h
    exact ⟨by simpa using Text.all_trim hall, by simp [Text.trim_trim]⟩
  · obtain ⟨text, rfl, -, hnumber⟩ := isNumber_of_numberLiteral h
    simpa [Literal.Formed] using hnumber
  all_goals
    obtain ⟨-, -, -, rfl, -⟩ := h
    trivial

theorem formed_of_identifier {node : Node} (h : identifier s = .ok node rest) :
    ∃ names, node = .identifier names ∧ names ≠ [] ∧ ∀ p ∈ names, p.Formed := by
  simp only [identifier, bind_eq_ok, pure_eq_ok] at h
  obtain ⟨names, _, hnames, rfl, -⟩ := h
  exact ⟨names, rfl, formed_of_parts hnames⟩

end Grammar

end JetSql
