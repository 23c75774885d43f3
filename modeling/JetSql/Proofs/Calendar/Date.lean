/-
Written dates.

`SpellsDate` says how a date is spelled, in either order, and which part of the text is its year.
The reader of dates asks for more: the year must have four characters, and the day must exist.

* **`isReal_iff`:** the dates of the calendar are those that exist by the Gregorian rule.
* **`either_spelled`:** a date is read in the order in which it is spelled, and in no other.
* **`date_spelled`:** a date whose year is spelled with four digits is read exactly if it exists.
* **`exists_of_date`, `of_date`:** whatever is read as a date spells it and nothing else, and its
  year has four digits unless it has a sign.
-/

import JetSql.Proofs.Calendar.Numeral

namespace JetSql

/-! ### The calendar -/

/-- A day of the proleptic Gregorian calendar. Of the years that four divides all have a 29 February
but the centuries that 400 does not divide. -/
def Date.Exists (date : Date) : Prop :=
  1 ≤ date.day ∧
    (date.month ∈ [1, 3, 5, 7, 8, 10, 12] ∧ date.day ≤ 31 ∨
      date.month ∈ [4, 6, 9, 11] ∧ date.day ≤ 30 ∨
      date.month = 2 ∧
        (date.day ≤ 28 ∨ date.day = 29 ∧ (4 ∣ date.year ∧ ¬100 ∣ date.year ∨ 400 ∣ date.year)))

instance (date : Date) : Decidable date.Exists := by
  unfold Date.Exists
  infer_instance

/-- The dates of the calendar are those that exist in the years that it has. -/
theorem Date.isReal_iff {date : Date} :
    date.IsReal ↔ date.Exists ∧ Date.firstYear ≤ date.year ∧ date.year ≤ Date.lastYear := by
  obtain ⟨year, month, day⟩ := date
  have hleap : isLeapYear year = true ↔ 4 ∣ year ∧ ¬100 ∣ year ∨ 400 ∣ year := by
    simp only [isLeapYear, Bool.and_eq_true, Bool.or_eq_true, beq_iff_eq, bne_iff_ne]
    omega
  simp only [IsReal, Exists, daysIn, List.mem_cons, List.not_mem_nil, or_false]
  split
  · split
    · rename_i hyear
      rw [hleap] at hyear
      omega
    · rename_i hyear
      rw [hleap] at hyear
      omega
  · simp only [Bool.or_eq_true, decide_eq_true_eq]
    split <;> omega

example : ¬(Date.mk 1900 2 29).Exists ∧ (Date.mk 2000 2 29).Exists := by decide

/-! ### Spelling -/

/-- A year as it is spelled: at most four digits, or a sign and any number of digits. -/
inductive SpellsYear : List Char → Int → Prop where
  | plain {text : List Char} {value : Nat} : Numeral 1 4 text value → SpellsYear text value
  | plus {text : List Char} {value : Nat} :
      Numeral 1 text.length text value → SpellsYear ('+' :: text) value
  | minus {text : List Char} {value : Nat} :
      Numeral 1 text.length text value → SpellsYear ('-' :: text) (-value)

/-- A date as it is spelled, and the part of it that spells the year. -/
inductive SpellsDate : List Char → List Char → Date → Prop where
  | yearFirst {y m d : List Char} {year : Int} {month day : Nat} :
      SpellsYear y year → Numeral 1 2 m month → Numeral 1 2 d day →
        SpellsDate (y ++ '-' :: (m ++ '-' :: d)) y ⟨year, month, day⟩
  | monthFirst {m d y : List Char} {month day : Nat} {year : Int} :
      Numeral 1 2 m month → Numeral 1 2 d day → SpellsYear y year →
        SpellsDate (m ++ '/' :: (d ++ '/' :: y)) y ⟨year, month, day⟩

variable {cs rest text y m d : List Char} {c : Char} {year : Int} {month day value least most : Nat}
  {date date' : Date}

theorem SpellsYear.not_mem_slash (h : SpellsYear y year) : '/' ∉ y := by
  cases h with
  | plain h => exact h.not_mem rfl
  | plus h | minus h => simpa using h.not_mem rfl

/-- Neither signs nor digits are blank. -/
theorem SpellsYear.notBlank (h : SpellsYear y year) : ∀ c ∈ y, Text.isBlank c = false := by
  cases h with
  | plain h => exact h.notBlank
  | plus h | minus h => exact List.forall_mem_cons.mpr ⟨rfl, h.notBlank⟩

theorem SpellsDate.notBlank (h : SpellsDate text y date) : ∀ c ∈ text, Text.isBlank c = false := by
  have hminus : Text.isBlank '-' = false := rfl
  have hslash : Text.isBlank '/' = false := rfl
  cases h with
  | yearFirst hy hm hd =>
    simp only [List.forall_mem_append, List.forall_mem_cons]
    exact ⟨hy.notBlank, hminus, hm.notBlank, hminus, hd.notBlank⟩
  | monthFirst hm hd hy =>
    simp only [List.forall_mem_append, List.forall_mem_cons]
    exact ⟨hm.notBlank, hslash, hd.notBlank, hslash, hy.notBlank⟩

theorem SpellsDate.head? (h : SpellsDate text y date) (cs : List Char) :
    (text ++ cs).head?.any Text.isBlank = false := by
  have hne : text ≠ [] := by cases h <;> simp
  cases text with
  | nil => exact absurd rfl hne
  | cons c text => exact h.notBlank c List.mem_cons_self

theorem SpellsDate.spellsYear (h : SpellsDate text y date) : SpellsYear y date.year := by
  cases h with
  | yearFirst hy hm hd => exact hy
  | monthFirst hm hd hy => exact hy

/-- A year that is spelled in digits alone is their value. -/
theorem SpellsYear.eq_of_numeral (h : SpellsYear y year) (hy : Numeral least most y value) :
    year = value := by
  cases h with
  | plain h => exact congrArg _ (h.value_eq.symm.trans hy.value_eq)
  | plus h | minus h => exact absurd List.mem_cons_self (hy.not_mem rfl)

theorem SpellsDate.year_range (h : SpellsDate text y date) (hy : Numeral 4 4 y value) :
    0 ≤ date.year ∧ date.year ≤ 9999 := by
  have hmost := hy.lt
  rw [Nat.le_antisymm hy.le_most hy.least_le] at hmost
  rw [h.spellsYear.eq_of_numeral hy]
  omega

theorem SpellsYear.exists_numeral (h : SpellsYear y year) (hplus : '+' ∉ y) (hminus : '-' ∉ y) :
    ∃ value, Numeral 1 4 y value := by
  cases h with
  | plain h => exact ⟨_, h⟩
  | plus => exact absurd List.mem_cons_self hplus
  | minus => exact absurd List.mem_cons_self hminus

namespace Written

/-! ### The parts of a date -/

theorem mark_eq_some : mark c cs = some rest ↔ cs = c :: rest := by
  cases cs with
  | nil => simp [mark]
  | cons d cs => by_cases h : d = c <;> simp [mark, h]

theorem realDate_eq_some : realDate date rest = some date' ↔
    date = date' ∧ rest = [] ∧ date.IsReal := by
  rw [realDate]
  split <;> rename_i h <;> simp [h]

/-- The digits after a sign are read as far as they go. -/
theorem digits_unbounded (h : Numeral 1 text.length text value)
    (hrest : rest.head?.any Char.isDigit = false) :
    digits (text ++ rest).length (text ++ rest) = some (value, rest) := by
  have hlength : text.length ≤ (text ++ rest).length := by
    rw [List.length_append]
    exact Nat.le_add_right _ _
  exact digits_numeral (h.ofLength h.least_le hlength) (.inr hrest)

/-- A year is read if no digit follows it. -/
theorem year_spelled (h : SpellsYear y year) (rest : List Char)
    (hrest : rest.head?.any Char.isDigit = false) :
    Written.year (y ++ rest) = some (year, rest) := by
  cases h with
  | plain h =>
    obtain ⟨c, tail, rfl, hc⟩ := h.exists_cons
    have hstart : Text.trimStart (c :: tail ++ rest) = c :: tail ++ rest :=
      Text.trimStart_eq_self (Text.isBlank_eq_false_of_isDigit hc)
    rw [Written.year, hstart]
    split
    · rename_i heq
      obtain ⟨rfl, -⟩ := List.cons.inj heq
      cases hc
    · rename_i heq
      obtain ⟨rfl, -⟩ := List.cons.inj heq
      cases hc
    · rw [digits_numeral h (.inr hrest), Option.map_some]
  | @plus text value h =>
    have hstart : Text.trimStart ('+' :: (text ++ rest)) = '+' :: (text ++ rest) :=
      Text.trimStart_eq_self rfl
    rw [List.cons_append, Written.year, hstart]
    simp only [digits_unbounded h hrest, Option.map_some]
  | @minus text value h =>
    have hstart : Text.trimStart ('-' :: (text ++ rest)) = '-' :: (text ++ rest) :=
      Text.trimStart_eq_self rfl
    rw [List.cons_append, Written.year, hstart]
    simp only [digits_unbounded h hrest, Option.map_some]

theorem exists_of_map_digits {most : Nat} {sign : Nat × List Char → Int × List Char}
    {found : Int × List Char} (h : (digits most cs).map sign = some found) :
    ∃ text value after, cs = text ++ after ∧ Numeral 1 most text value ∧
      sign (value, after) = found := by
  obtain ⟨⟨value, after⟩, hdigits, hfound⟩ := Option.map_eq_some_iff.mp h
  obtain ⟨text, htext, hnumeral⟩ := exists_of_digits hdigits
  exact ⟨text, value, after, htext, hnumeral, hfound⟩

/-- What is read as a year spells it. -/
theorem exists_of_year (hcs : ∀ c ∈ cs, Text.isBlank c = false)
    (h : Written.year cs = some (year, rest)) :
    ∃ text, cs = text ++ rest ∧ SpellsYear text year := by
  rw [Written.year, Text.trimStart_of_forall hcs] at h
  split at h
  · obtain ⟨text, value, _, rfl, hnumeral, ⟨⟩⟩ := exists_of_map_digits h
    exact ⟨'-' :: text, rfl, .minus (hnumeral.ofLength hnumeral.least_le (Nat.le_refl _))⟩
  · obtain ⟨text, value, _, rfl, hnumeral, ⟨⟩⟩ := exists_of_map_digits h
    exact ⟨'+' :: text, rfl, .plus (hnumeral.ofLength hnumeral.least_le (Nat.le_refl _))⟩
  · obtain ⟨text, value, _, htext, hnumeral, ⟨⟩⟩ := exists_of_map_digits h
    exact ⟨text, htext, .plain hnumeral⟩

/-! ### Either order -/

theorem yearFirst_spelled (hy : SpellsYear y year) (hm : Numeral 1 2 m month)
    (hd : Numeral 1 2 d day) :
    yearFirst (y ++ '-' :: (m ++ '-' :: d)) = realDate ⟨year, month, day⟩ [] := by
  have hday := field_numeral hd [] (.inr rfl)
  rw [List.append_nil] at hday
  simp [yearFirst, year_spelled hy ('-' :: (m ++ '-' :: d)) rfl, mark,
    field_numeral hm ('-' :: d) (.inr rfl), hday]

theorem monthFirst_spelled (hm : Numeral 1 2 m month) (hd : Numeral 1 2 d day)
    (hy : SpellsYear y year) :
    monthFirst (m ++ '/' :: (d ++ '/' :: y)) = realDate ⟨year, month, day⟩ [] := by
  have hyear := year_spelled hy [] rfl
  rw [List.append_nil] at hyear
  simp [monthFirst, hyear, mark, field_numeral hm ('/' :: (d ++ '/' :: y)) (.inr rfl),
    field_numeral hd ('/' :: y) (.inr rfl)]

/-- What is read as a date with the year first is one. -/
theorem exists_of_yearFirst (hcs : ∀ c ∈ cs, Text.isBlank c = false)
    (h : yearFirst cs = some date) :
    ∃ y m d, cs = y ++ '-' :: (m ++ '-' :: d) ∧ SpellsYear y date.year ∧
      Numeral 1 2 m date.month ∧ Numeral 1 2 d date.day := by
  simp only [yearFirst, Option.bind_eq_bind, Option.bind_eq_some_iff, mark_eq_some,
    realDate_eq_some, Prod.exists] at h
  obtain ⟨year, _, hyear, afterYear, rfl, month, _, hmonth, afterMonth, rfl, day, _, hday, rfl, rfl,
    -⟩ := h
  obtain ⟨y, rfl, hy⟩ := exists_of_year hcs hyear
  rw [List.forall_mem_append, List.forall_mem_cons] at hcs
  obtain ⟨m, rfl, hm⟩ := exists_of_field hcs.2.2 hmonth
  rw [List.forall_mem_append, List.forall_mem_cons] at hcs
  obtain ⟨d, rfl, hd⟩ := exists_of_field hcs.2.2.2.2 hday
  exact ⟨y, m, d, by rw [List.append_nil], hy, hm, hd⟩

/-- What is read as a date with the month first is one. -/
theorem exists_of_monthFirst (hcs : ∀ c ∈ cs, Text.isBlank c = false)
    (h : monthFirst cs = some date) :
    ∃ m d y, cs = m ++ '/' :: (d ++ '/' :: y) ∧ Numeral 1 2 m date.month ∧
      Numeral 1 2 d date.day ∧ SpellsYear y date.year := by
  simp only [monthFirst, Option.bind_eq_bind, Option.bind_eq_some_iff, mark_eq_some,
    realDate_eq_some, Prod.exists] at h
  obtain ⟨month, _, hmonth, afterMonth, rfl, day, _, hday, afterDay, rfl, year, _, hyear, rfl, rfl,
    -⟩ := h
  obtain ⟨m, rfl, hm⟩ := exists_of_field hcs hmonth
  rw [List.forall_mem_append, List.forall_mem_cons] at hcs
  obtain ⟨d, rfl, hd⟩ := exists_of_field hcs.2.2 hday
  rw [List.forall_mem_append, List.forall_mem_cons] at hcs
  obtain ⟨y, rfl, hy⟩ := exists_of_year hcs.2.2.2.2 hyear
  exact ⟨m, d, y, by rw [List.append_nil], hm, hd, hy⟩

/-! ### The date -/

/-- A text that spells a date is read as that date or not at all. -/
theorem either_spelled (h : SpellsDate text y date) :
    (yearFirst text <|> monthFirst text) = realDate date [] := by
  cases h with
  | @yearFirst y m d year month day hy hm hd =>
    rw [yearFirst_spelled hy hm hd]
    cases hmonth : monthFirst (y ++ '-' :: (m ++ '-' :: d)) with
    | none => simp
    | some found =>
      obtain ⟨m', d', y', htext, -⟩ :=
        exists_of_monthFirst (SpellsDate.yearFirst hy hm hd).notBlank hmonth
      have hslash : '/' ∉ y ++ '-' :: (m ++ '-' :: d) := by
        simp [hy.not_mem_slash, hm.not_mem, hd.not_mem]
      rw [htext] at hslash
      exact absurd (List.mem_append_right _ List.mem_cons_self) hslash
  | @monthFirst m d y month day year hm hd hy =>
    rw [monthFirst_spelled hm hd hy]
    cases hyear : yearFirst (m ++ '/' :: (d ++ '/' :: y)) with
    | none => rfl
    | some found =>
      obtain ⟨y', m', d', htext, hy', hm', hd'⟩ :=
        exists_of_yearFirst (SpellsDate.monthFirst hm hd hy).notBlank hyear
      have hslash : '/' ∉ y' ++ '-' :: (m' ++ '-' :: d') := by
        simp [hy'.not_mem_slash, hm'.not_mem, hd'.not_mem]
      rw [← htext] at hslash
      exact absurd (List.mem_append_right _ List.mem_cons_self) hslash

/-- The year of a date is found where it stands, unless it has a minus sign. -/
theorem hasFullYear_spelled (h : SpellsDate text y date) (hy : '-' ∉ y) :
    hasFullYear text = (y.length == 4) := by
  have hne {stop : Char} {part : List Char} (hpart : stop ∉ part) :
      ∀ c ∈ part, (c != stop) = true :=
    fun c hc => bne_iff_ne.mpr fun heq => hpart (heq ▸ hc)
  cases h with
  | yearFirst hyear hm hd =>
    simp [hasFullYear, List.takeWhile_append_of_pos (hne hy)]
  | @monthFirst m d _ _ _ _ hm hd hyear =>
    have hminus : ¬('-' ∈ m ∨ '-' ∈ d ∨ '-' ∈ y) := by
      simp [hm.not_mem, hd.not_mem, hy]
    have hslash : '/' ∉ y.reverse := by
      simpa using hyear.not_mem_slash
    simp [hasFullYear, hminus, List.takeWhile_append_of_pos (hne hslash)]

/-- A date is read exactly if it exists when its year is spelled with four digits. -/
theorem date_spelled (h : SpellsDate text y date) (hy : Numeral 4 4 y value) :
    Written.date text = realDate date [] := by
  have hlength : y.length = 4 := Nat.le_antisymm hy.le_most hy.least_le
  rw [Written.date, hasFullYear_spelled h (hy.not_mem rfl), hlength]
  exact either_spelled h

/-- What is read as a date spells it. -/
theorem exists_of_date (hcs : ∀ c ∈ cs, Text.isBlank c = false) (h : Written.date cs = some date) :
    ∃ y, SpellsDate cs y date := by
  rw [Written.date] at h
  split at h
  · simp only [Option.orElse_eq_orElse, Option.orElse_eq_or, Option.or_eq_some_iff] at h
    rcases h with h | ⟨-, h⟩
    · obtain ⟨y, m, d, rfl, hy, hm, hd⟩ := exists_of_yearFirst hcs h
      exact ⟨y, .yearFirst hy hm hd⟩
    · obtain ⟨m, d, y, rfl, hm, hd, hy⟩ := exists_of_monthFirst hcs h
      exact ⟨y, .monthFirst hm hd hy⟩
  · cases h

/-- However a text that is read as a date is spelled, it spells that date. -/
theorem of_date (hspell : SpellsDate cs y date) (h : Written.date cs = some date') :
    date = date' ∧ date'.IsReal ∧ ('-' ∉ y → y.length = 4) := by
  rw [Written.date] at h
  split at h
  · rename_i hfull
    have hfound : realDate date [] = some date' := (either_spelled hspell).symm.trans h
    obtain ⟨rfl, -, hreal⟩ := realDate_eq_some.mp hfound
    refine ⟨rfl, hreal, fun hy => ?_⟩
    rw [hasFullYear_spelled hspell hy] at hfull
    exact beq_iff_eq.mp hfull
  · cases h

end Written

end JetSql
