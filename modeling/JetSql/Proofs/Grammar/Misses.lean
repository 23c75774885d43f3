/-
When readings miss.

A combinator of `Reader` has one lemma that says when it misses, as it has one that says when it
succeeds. An alternative is tried exactly after a miss, so these lemmas decide which one is taken.
-/

import JetSql.Proofs.Grammar.Success

namespace JetSql.Grammar

namespace Reader

variable {α β : Type} {s : List Char}

@[simp] theorem pure_misses {value : α} : ¬ Misses (pure value) s := by
  simp [Misses, pure_apply]

@[simp] theorem bind_misses {reader : Reader α} {next : α → Reader β} :
    Misses (reader >>= next) s ↔
      reader.Misses s ∨ ∃ value rest, reader s = .ok value rest ∧ (next value).Misses rest := by
  simp only [Misses, bind_apply]
  cases reader s <;> simp [and_assoc]

@[simp] theorem seqRight_misses {reader : Reader α} {next : Reader β} :
    Misses (reader *> next) s ↔
      reader.Misses s ∨ ∃ value rest, reader s = .ok value rest ∧ next.Misses rest := by
  rw [seqRight_eq_bind, bind_misses]

@[simp] theorem orElse_misses {first second : Reader α} :
    Misses (first <|> second) s ↔ first.Misses s ∧ second.Misses s := by
  change Misses (Reader.orElse first fun _ => second) s ↔ _
  simp only [Misses, Reader.orElse]
  cases first s with
  | miss left expected =>
    cases second s with
    | miss left' expected' =>
      simp only [Outcome.afterMiss]
      split <;> simp
    | _ => simp [Outcome.afterMiss]
  | _ => simp

@[simp] theorem satisfying_misses {reader : Reader α} {test : α → Bool} :
    Misses (satisfying reader test) s ↔
      reader.Misses s ∨ ∃ value rest, reader s = .ok value rest ∧ test value = false := by
  simp only [Misses, satisfying]
  cases reader s with
  | ok value rest => by_cases h : test value = true <;> simp [h]
  | _ => simp

@[simp] theorem char_misses {c : Char} : Misses (char c) s ↔ s.head? ≠ some c := by
  rw [Misses, char.eq_def]
  cases s with
  | nil => simp
  | cons d s => by_cases h : d = c <;> simp [h]

theorem exactly_misses {fixed : String} :
    Misses (exactly fixed) s ↔ ∀ rest, s ≠ fixed.toList ++ rest := by
  rw [Misses, exactly]
  cases h : dropText? fixed.toList s with
  | none =>
    simp only [Outcome.miss.injEq, exists_and_left, exists_eq', and_true, true_iff]
    intro rest hs
    simp [dropText?_eq_some.mpr hs] at h
  | some rest => simpa using ⟨rest, dropText?_eq_some.mp h⟩

@[simp] theorem run1_misses {p : Char → Bool} :
    Misses (run1 p) s ↔ s.head?.any p = false := by
  rw [Misses, run1]
  cases s with
  | nil => simp
  | cons c s => by_cases h : p c = true <;> simp [h]

/-- A reading that never halts misses where it does not succeed. -/
theorem misses_of_not_ok {reader : Reader α} (hhalt : ∀ error, reader s ≠ .halt error)
    (h : ∀ value rest, reader s ≠ .ok value rest) : reader.Misses s := by
  rw [Misses]
  cases hs : reader s with
  | ok value rest => exact absurd hs (h value rest)
  | miss left expected => exact ⟨left, expected, rfl⟩
  | halt error => exact absurd hs (hhalt error)

theorem Misses.ne_ok {reader : Reader α} {value : α} {rest : List Char} (h : reader.Misses s) :
    reader s ≠ .ok value rest := by
  obtain ⟨left, expected, h⟩ := h
  rw [h]
  nofun

theorem Misses.ne_halt {reader : Reader α} {error : Error} (h : reader.Misses s) :
    reader s ≠ .halt error := by
  obtain ⟨left, expected, h⟩ := h
  rw [h]
  nofun

theorem firstOf_cons_of_misses {reader : Reader α} {readers : List (Reader α)}
    (h : reader.Misses s) : firstOf (reader :: readers) s = firstOf readers s := by
  obtain ⟨left, expected, h⟩ := h
  rw [firstOf_cons, h]

theorem firstOf_cons_of_ok {reader : Reader α} {readers : List (Reader α)} {value : α}
    {rest : List Char} (h : reader s = .ok value rest) :
    firstOf (reader :: readers) s = .ok (some value) rest := by
  rw [firstOf_cons, h]

end Reader

open Reader

variable {s : List Char}

@[simp] theorem spacing_misses : ¬ Misses spacing s := by
  simp [Misses, spacing]

@[simp] theorem symbol_misses {mark : String} :
    Misses (symbol mark) s ↔ ∀ rest, skipSpacing s ≠ mark.toList ++ rest := by
  simp [symbol, exactly_misses]

/-! ### Keywords -/

/-- Whether a word is in capitals, none of them a `K`. To look for such a keyword never aborts the
reading. -/
def isSteady (word : String) : Bool :=
  word.toList.all fun c => c.isUpper && c != 'K'

theorem all_isUpper_of_isSteady {word : String} (h : isSteady word = true) :
    word.toList.all Char.isUpper = true := by
  simp only [isSteady, List.all_eq_true, Bool.and_eq_true] at h ⊢
  exact fun c hc => (h c hc).1

/-- No text agrees with a steady word through a Kelvin sign. -/
theorem splitsCharacter_of_steady {fixed : List Char}
    (h : fixed.all (fun c => c.isUpper && c != 'K') = true) (s : List Char) :
    splitsCharacter fixed s = false := by
  induction fixed generalizing s with
  | nil => simp [splitsCharacter]
  | cons c fixed ih =>
    rw [List.all_cons, Bool.and_eq_true, Bool.and_eq_true, bne_iff_ne] at h
    obtain ⟨⟨hupper, hc⟩, hfixed⟩ := h
    cases s with
    | nil => simp [splitsCharacter]
    | cons d s =>
      have htail := ih hfixed s
      rw [splitsCharacter] at htail ⊢
      have hletter : (d.toUpper == c || (c == 'K' && d == kelvinSign)) = (d.toUpper == c) := by
        simp [hc]
      rw [agreesInAnyCase, hletter, List.length_cons, List.take_succ_cons, List.contains_cons]
      by_cases hd : d.toUpper = c
      · have hsign : (kelvinSign == d) = false := by
          rw [beq_eq_false_iff_ne]
          rintro rfl
          rw [← hd] at hupper
          exact absurd hupper (by decide)
        rw [hsign, Bool.false_or, Bool.and_assoc, htail, Bool.and_false]
      · rw [beq_eq_false_iff_ne.mpr hd, Bool.false_and, Bool.false_and]

theorem keyword_misses {word : String} (hword : isSteady word = true) :
    Misses (keyword word) s ↔ ∀ rest, keyword word s ≠ .ok () rest := by
  rw [Misses, keyword, splitsCharacter_of_steady hword]
  cases dropTextNoCase? word.toList (skipSpacing s) with
  | none => simp
  | some rest => by_cases h : rest.head?.any Text.isWordChar = true <;> simp [h]

/-- A keyword begins with its first letter, in either case. -/
theorem head?_of_keyword {word : String} {rest : List Char} (h : keyword word s = .ok () rest)
    (hword : word.toList ≠ []) : (skipSpacing s).head?.map Char.toUpper = word.toList.head? := by
  obtain ⟨⟨written, hs, hwritten⟩, -⟩ := keyword_eq_ok.mp h
  rw [hs, ← hwritten]
  cases written with
  | nil => exact absurd hwritten.symm hword
  | cons c written => rfl

/-- A keyword with another first letter misses. -/
theorem keyword_misses_of_head? {word : String} {c : Char} (hword : word.toList.head? = some c)
    (hc : c = 'K' → (skipSpacing s).head? ≠ some kelvinSign)
    (h : (skipSpacing s).head?.map Char.toUpper ≠ some c) : Misses (keyword word) s := by
  obtain ⟨cs, hcs⟩ := List.head?_eq_some_iff.mp hword
  rw [Misses, keyword, hcs]
  cases hs : skipSpacing s with
  | nil => simp [dropTextNoCase?, splitsCharacter]
  | cons d rest =>
    have hd : d.toUpper ≠ c := by simpa [hs] using h
    have hsign : c = 'K' → d ≠ kelvinSign := by simpa [hs] using hc
    have hagrees : agreesInAnyCase (c :: cs) (d :: rest) = false := by
      have hletter : (d.toUpper == c || (c == 'K' && d == kelvinSign)) = false := by
        simpa [hd] using hsign
      rw [agreesInAnyCase, hletter, Bool.false_and]
    simp [dropTextNoCase?, splitsCharacter, hagrees, hd]

theorem word_misses : Misses word s ↔ s.head?.any Text.isWordStart = false := by
  rw [Misses, word.eq_def]
  cases s with
  | nil => simp
  | cons c s => by_cases h : Text.isWordStart c = true <;> simp [h]

end JetSql.Grammar
