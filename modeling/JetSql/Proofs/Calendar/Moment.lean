/-
Date literals: what stands between the number signs, and the standard form of what it names.

`SpellsMoment` lays a date and perhaps a time out between blanks; `Standard` is the one form in
which moments are written again.

* **`ofText_spelled`:** with a four-digit year and a second below sixty, a literal names a moment
  exactly if the date exists and the time is in range, and the moment is that one.
* **`stable_iff_of_ofText`:** what an accepted literal names is a moment of the common calendar and
  can be written in the standard form and read again, unless the year has a sign or the second is
  60. The check for four digits counts a sign as a digit, and where a minus sign stands before a year
  it counts the characters of month and day instead.
-/

import JetSql.Proofs.Calendar.Time

namespace JetSql

/-! ### Moments -/

/-- The day of a moment. -/
def Moment.date : Moment → Date
  | .day date | .timestamp date _ => date

/-- The time of a moment, if it has one. -/
def Moment.clock? : Moment → Option TimeOfDay
  | .day _ => none
  | .timestamp _ clock => some clock

/-- Whether a moment is one of the common calendar, in which every minute has sixty seconds. -/
def Moment.Proper (moment : Moment) : Prop :=
  moment.date.Exists ∧
    ∀ clock ∈ moment.clock?, clock.hour ≤ 23 ∧ clock.minute ≤ 59 ∧ clock.second ≤ 59

/-- The moment of a written date and time. -/
def instant (date : Date) : Option WrittenTime → Moment
  | none => .day date
  | some time => .timestamp date time.clock

/-! ### Spelling -/

/-- A literal as it is spelled: a date and perhaps a time, blanks between the two and around both.
The second argument is the part that spells the year. -/
inductive SpellsMoment : List Char → List Char → Date → Option WrittenTime → Prop where
  | day {before text after y : List Char} {date : Date} :
      before.all Text.isBlank = true → SpellsDate text y date → after.all Text.isBlank = true →
        SpellsMoment (before ++ (text ++ after)) y date none
  | timestamp {before text gap clock after y : List Char} {date : Date} {time : WrittenTime} :
      before.all Text.isBlank = true → SpellsDate text y date →
        gap ≠ [] → gap.all Text.isBlank = true → SpellsTime clock time →
        after.all Text.isBlank = true →
        SpellsMoment (before ++ (text ++ (gap ++ clock) ++ after)) y date (some time)

theorem SpellsMoment.exists_spellsDate {cs y : List Char} {date : Date}
    {time? : Option WrittenTime} (h : SpellsMoment cs y date time?) :
    ∃ text, SpellsDate text y date := by
  cases h with
  | day _ hspell | timestamp _ hspell => exact ⟨_, hspell⟩

/-- The word that a text begins with, after blanks. -/
def firstWord (cs : List Char) : List Char :=
  (Text.trim cs).takeWhile fun c => !Text.isBlank c

/-- Whether a part of a literal spells its year. -/
def YearField (raw : String) (field : List Char) : Prop :=
  ∃ date, SpellsDate (firstWord raw.toList) field date

/-! ### The standard form -/

/-- `YYYY-MM-DD`. -/
inductive StandardDate : List Char → Date → Prop where
  | mk {y m d : List Char} {year month day : Nat} :
      Numeral 4 4 y year → Numeral 2 2 m month → Numeral 2 2 d day →
        StandardDate (y ++ '-' :: (m ++ '-' :: d)) ⟨year, month, day⟩

/-- `HH:MM:SS`. -/
inductive StandardTime : List Char → TimeOfDay → Prop where
  | mk {h m s : List Char} {hour minute second : Nat} :
      Numeral 2 2 h hour → Numeral 2 2 m minute → Numeral 2 2 s second →
        StandardTime (h ++ ':' :: (m ++ ':' :: s)) ⟨hour, minute, second⟩

/-- `YYYY-MM-DD` or `YYYY-MM-DD HH:MM:SS`. -/
inductive Standard : List Char → Moment → Prop where
  | day {text : List Char} {date : Date} : StandardDate text date → Standard text (.day date)
  | timestamp {text clockText : List Char} {date : Date} {clock : TimeOfDay} :
      StandardDate text date → StandardTime clockText clock →
        Standard (text ++ ' ' :: clockText) (.timestamp date clock)

variable {cs text y clockText before after : List Char} {value : Nat} {date : Date}
  {clock : TimeOfDay} {time : WrittenTime} {time? : Option WrittenTime} {moment : Moment}
  {raw : String}

theorem standardDate_iso (hexists : date.Exists) (hleast : 0 ≤ date.year)
    (hmost : date.year ≤ 9999) : StandardDate date.iso.toList date := by
  obtain ⟨year, month, day⟩ := date
  obtain ⟨n, rfl⟩ := Int.eq_ofNat_of_zero_le hleast
  have hmonth : month < 100 ∧ day < 100 := by
    simp only [Date.Exists, List.mem_cons, List.not_mem_nil, or_false] at hexists
    omega
  have hyear : n < 10000 := by
    simp only at hmost
    omega
  have htext : (Date.mk n month day).iso.toList = (Text.zeroPadded 4 n).toList ++
      '-' :: ((Text.zeroPadded 2 month).toList ++ '-' :: (Text.zeroPadded 2 day).toList) := by
    have hform : Date.yearText n = Text.zeroPadded 4 n := if_pos ⟨hleast, hmost⟩
    simp [Date.iso, hform]
  rw [htext]
  exact .mk (numeral_zeroPadded (by decide) hyear) (numeral_zeroPadded (by decide) hmonth.1)
    (numeral_zeroPadded (by decide) hmonth.2)

theorem standardTime_iso (hreal : clock.IsReal) : StandardTime clock.iso.toList clock := by
  obtain ⟨hour, minute, second⟩ := clock
  obtain ⟨hhour, hminute, hsecond⟩ := hreal
  simp only at hhour hminute hsecond
  have htext : (TimeOfDay.mk hour minute second).iso.toList = (Text.zeroPadded 2 hour).toList ++
      ':' :: ((Text.zeroPadded 2 minute).toList ++ ':' :: (Text.zeroPadded 2 second).toList) := by
    simp [TimeOfDay.iso]
  rw [htext]
  exact .mk (numeral_zeroPadded (by decide) (by omega)) (numeral_zeroPadded (by decide) (by omega))
    (numeral_zeroPadded (by decide) (by omega))

/-- The standard form of a moment, in a year of four digits. -/
theorem standard_iso (hexists : moment.date.Exists) (hleast : 0 ≤ moment.date.year)
    (hmost : moment.date.year ≤ 9999) (hreal : ∀ clock ∈ moment.clock?, clock.IsReal) :
    Standard moment.iso.toList moment := by
  cases moment with
  | day date => exact .day (standardDate_iso hexists hleast hmost)
  | timestamp date clock =>
    have htext : (Moment.timestamp date clock).iso.toList =
        date.iso.toList ++ ' ' :: clock.iso.toList := by
      simp [Moment.iso]
    rw [htext]
    exact .timestamp (standardDate_iso hexists hleast hmost) (standardTime_iso (hreal clock rfl))

/-! ### Reading -/

namespace Written

theorem takeWhile_date (h : SpellsDate text y date) (rest : List Char)
    (hrest : rest.head?.all Text.isBlank = true) :
    (text ++ rest).takeWhile (fun c => !Text.isBlank c) = text ∧
      (text ++ rest).dropWhile (fun c => !Text.isBlank c) = rest := by
  have hword : ∀ c ∈ text, (!Text.isBlank c) = true := by
    intro c hc
    rw [h.notBlank c hc, Bool.not_false]
  rw [List.takeWhile_append_of_pos hword, List.dropWhile_append_of_pos hword]
  cases rest with
  | nil => simp
  | cons c rest =>
    rw [List.head?_cons, Option.all_some] at hrest
    simp [hrest]

/-- Without a time a literal names a day. -/
theorem moment_day (hbefore : before.all Text.isBlank = true) (h : SpellsDate text y date)
    (hafter : after.all Text.isBlank = true) :
    Written.moment (before ++ (text ++ after)) = (Written.date text).map .day := by
  have hword := takeWhile_date h [] rfl
  rw [List.append_nil] at hword
  simp only [Written.moment, Text.trim_framed hbefore hafter, Text.trim_of_forall h.notBlank,
    hword.1, hword.2]

/-- With a time it names that time of the day. -/
theorem moment_timestamp {gap : List Char} (hbefore : before.all Text.isBlank = true)
    (h : SpellsDate text y date) (hne : gap ≠ []) (hgap : gap.all Text.isBlank = true)
    (hclock : SpellsTime clockText time) (hafter : after.all Text.isBlank = true) :
    Written.moment (before ++ (text ++ (gap ++ clockText) ++ after)) =
      (Written.date text).bind fun date => (Written.time clockText).map (.timestamp date) := by
  obtain ⟨blank, gap, rfl⟩ := List.exists_cons_of_ne_nil hne
  rw [List.all_cons, Bool.and_eq_true] at hgap
  have htrim : Text.trim (text ++ blank :: (gap ++ clockText)) =
      text ++ blank :: (gap ++ clockText) := by
    refine Text.trim_eq_self (h.head? _) ?_
    rw [List.append_cons, ← List.append_assoc]
    exact hclock.getLast? _
  have hword := takeWhile_date h (blank :: (gap ++ clockText)) hgap.1
  have hrest : Text.trim (gap ++ clockText) = clockText := by
    have hframed : Text.trim (gap ++ (clockText ++ [])) = Text.trim clockText :=
      Text.trim_framed hgap.2 rfl clockText
    rw [List.append_nil] at hframed
    rw [hframed]
    exact Text.trim_eq_self hclock.head? (hclock.getLast? [])
  simp only [Written.moment, Text.trim_framed hbefore hafter, List.cons_append, htrim, hword.1,
    hword.2, hrest]
  cases Written.date text <;> cases Written.time clockText <;> rfl

/-- A literal with a four-digit year names a moment exactly if its date exists and its time is in
range. -/
theorem moment_spelled (h : SpellsMoment cs y date time?) (hy : Numeral 4 4 y value)
    (hsecond : ∀ time ∈ time?, ∀ second ∈ time.second?, second ≤ 60) :
    Written.moment cs = some moment ↔
      (date.Exists ∧ ∀ time ∈ time?, time.InRange) ∧ instant date time? = moment := by
  have hdate {text : List Char} (hspell : SpellsDate text y date) {found : Date} :
      Written.date text = some found ↔ date = found ∧ date.Exists := by
    obtain ⟨hleast, hmost⟩ := hspell.year_range hy
    have hcalendar : Date.firstYear ≤ date.year ∧ date.year ≤ Date.lastYear := by
      rw [Date.firstYear, Date.lastYear]
      omega
    rw [date_spelled hspell hy, realDate_eq_some, Date.isReal_iff]
    simp [hcalendar]
  cases h with
  | day hbefore hspell hafter =>
    rw [moment_day hbefore hspell hafter, Option.map_eq_some_iff]
    constructor
    · rintro ⟨found, hfound, rfl⟩
      obtain ⟨rfl, hexists⟩ := (hdate hspell).mp hfound
      exact ⟨⟨hexists, nofun⟩, rfl⟩
    · rintro ⟨⟨hexists, -⟩, rfl⟩
      exact ⟨date, (hdate hspell).mpr ⟨rfl, hexists⟩, rfl⟩
  | @timestamp _ _ _ _ _ _ _ time hbefore hspell hne hgap hclock hafter =>
    have htime {found : TimeOfDay} : Written.time _ = some found ↔ _ :=
      time_spelled hclock (hsecond time rfl)
    rw [moment_timestamp hbefore hspell hne hgap hclock hafter, Option.bind_eq_some_iff]
    constructor
    · rintro ⟨found, hfound, hmoment⟩
      obtain ⟨rfl, hexists⟩ := (hdate hspell).mp hfound
      obtain ⟨clock, hclockFound, rfl⟩ := Option.map_eq_some_iff.mp hmoment
      obtain ⟨hrange, rfl⟩ := htime.mp hclockFound
      exact ⟨⟨hexists, fun _ hmem => Option.some.inj hmem ▸ hrange⟩, rfl⟩
    · rintro ⟨⟨hexists, hrange⟩, rfl⟩
      refine ⟨date, (hdate hspell).mpr ⟨rfl, hexists⟩, ?_⟩
      rw [htime.mpr ⟨hrange time rfl, rfl⟩]
      rfl

/-- What a literal names is a day of its calendar and a time. -/
theorem of_moment (h : Written.moment cs = some moment) :
    Written.date (firstWord cs) = some moment.date ∧
      ∀ clock ∈ moment.clock?, clock.IsReal := by
  simp only [Written.moment] at h
  split at h
  · obtain ⟨date, hdate, rfl⟩ := Option.map_eq_some_iff.mp h
    exact ⟨hdate, nofun⟩
  · simp only [Option.bind_eq_bind, Option.bind_eq_some_iff, Option.pure_def,
      Option.some.injEq] at h
    obtain ⟨date, hdate, clock, hclock, rfl⟩ := h
    exact ⟨hdate, fun _ hmem => Option.some.inj hmem ▸ isReal_of_time hclock⟩

end Written

/-! ### The standard form is read again -/

theorem StandardDate.exists_spellsDate (h : StandardDate text date) :
    ∃ y value, SpellsDate text y date ∧ Numeral 4 4 y value := by
  obtain ⟨hy, hm, hd⟩ := h
  exact ⟨_, _, .yearFirst (.plain (hy.mono (by decide) (Nat.le_refl 4)))
    (hm.mono (by decide) (Nat.le_refl 2)) (hd.mono (by decide) (Nat.le_refl 2)), hy⟩

theorem StandardTime.spellsTime (h : StandardTime clockText clock) :
    SpellsTime clockText ⟨clock.hour, clock.minute, some clock.second, none⟩ := by
  obtain ⟨hh, hm, hs⟩ := h
  have hspell := SpellsTime.mk (hh.mono (by decide) (Nat.le_refl 2))
    (hm.mono (by decide) (Nat.le_refl 2)) (.given (hs.mono (by decide) (Nat.le_refl 2))) .missing
  rwa [List.append_nil] at hspell

/-- The standard form of a moment is read as that moment. -/
theorem Standard.moment_eq (h : Standard cs moment) (hexists : moment.date.Exists)
    (hreal : ∀ clock ∈ moment.clock?, clock.IsReal) : Written.moment cs = some moment := by
  cases h with
  | day hdate =>
    obtain ⟨y, value, hspell, hy⟩ := hdate.exists_spellsDate
    have hlayout : SpellsMoment ([] ++ (cs ++ [])) y _ none := .day rfl hspell rfl
    rw [List.nil_append, List.append_nil] at hlayout
    exact (Written.moment_spelled hlayout hy nofun).mpr ⟨⟨hexists, nofun⟩, rfl⟩
  | @timestamp text clockText date clock hdate hclock =>
    obtain ⟨y, value, hspell, hy⟩ := hdate.exists_spellsDate
    obtain ⟨hhour, hminute, hsecond⟩ := hreal clock rfl
    have hlayout : SpellsMoment ([] ++ (text ++ ([' '] ++ clockText) ++ [])) y date
        (some ⟨clock.hour, clock.minute, some clock.second, none⟩) :=
      .timestamp rfl hspell (List.cons_ne_nil _ _) rfl hclock.spellsTime rfl
    rw [List.nil_append, List.append_nil, List.singleton_append] at hlayout
    refine (Written.moment_spelled hlayout hy ?_).mpr ⟨⟨hexists, ?_⟩, rfl⟩
    · rintro _ ⟨⟩ _ ⟨⟩
      exact hsecond
    · rintro _ ⟨⟩
      exact ⟨hhour, hminute⟩

/-! ### Literals -/

theorem ofText_eq_ok :
    Moment.ofText raw = .ok moment ↔ Written.moment raw.toList = some moment := by
  rw [Moment.ofText]
  cases Written.moment raw.toList <;> simp

/-- With a four-digit year and a second below sixty, a literal names a moment exactly if its date
exists and its time is in range. It is that moment then, and else the error is of the category
`structural`. -/
theorem ofText_spelled (h : SpellsMoment raw.toList y date time?) (hy : Numeral 4 4 y value)
    (hsecond : ∀ time ∈ time?, ∀ second ∈ time.second?, second < 60) :
    ((∃ moment, Moment.ofText raw = .ok moment) ↔
        date.Exists ∧ ∀ time ∈ time?, time.InRange) ∧
      (∀ moment, Moment.ofText raw = .ok moment →
        moment = instant date time? ∧ Standard moment.iso.toList moment) ∧
      ∀ error, Moment.ofText raw = .error error →
        error = .badDate raw ∧ error.category = .structural := by
  have hread {moment : Moment} : Written.moment raw.toList = some moment ↔ _ :=
    Written.moment_spelled h hy fun time htime second hgiven =>
      Nat.le_of_lt (hsecond time htime second hgiven)
  simp only [ofText_eq_ok]
  refine ⟨?_, ?_, ?_⟩
  · constructor
    · rintro ⟨moment, hmoment⟩
      exact (hread.mp hmoment).1
    · intro hrange
      exact ⟨_, hread.mpr ⟨hrange, rfl⟩⟩
  · intro moment hmoment
    obtain ⟨⟨hexists, -⟩, rfl⟩ := hread.mp hmoment
    obtain ⟨text, hspell⟩ := h.exists_spellsDate
    obtain ⟨hleast, hmost⟩ := hspell.year_range hy
    have hday : (instant date time?).date = date := by cases time? <;> rfl
    refine ⟨rfl, standard_iso ?_ ?_ ?_ (Written.of_moment hmoment).2⟩
    · rwa [hday]
    · rwa [hday]
    · rwa [hday]
  · intro error herror
    rw [Moment.ofText] at herror
    split at herror
    · cases herror
    · obtain rfl := Except.error.inj herror
      exact ⟨rfl, rfl⟩

/-- Five past noon on a leap day, between blanks. -/
theorem ofText_spelled_leap_day :
    Moment.ofText " 2/29/2024\t12:05 pM\n" = .ok (.timestamp ⟨2024, 2, 29⟩ ⟨12, 5, 0⟩) := by
  have hyear : Numeral 4 4 ['2', '0', '2', '4'] 2024 := by decide
  have hmonth : Numeral 1 2 ['2'] 2 := by decide
  have hday : Numeral 1 2 ['2', '9'] 29 := by decide
  have hhour : Numeral 1 2 ['1', '2'] 12 := by decide
  have hminute : Numeral 1 2 ['0', '5'] 5 := by decide
  have hhalf : SpellsHalf ([' '] ++ ['p', 'M']) (some .afternoon) := .given rfl rfl
  have hdate : SpellsDate "2/29/2024".toList ['2', '0', '2', '4'] ⟨2024, 2, 29⟩ :=
    .monthFirst hmonth hday (.plain (hyear.mono (by decide) (Nat.le_refl 4)))
  have htime : SpellsTime "12:05 pM".toList ⟨12, 5, none, some .afternoon⟩ :=
    .mk hhour hminute .missing hhalf
  have hspell : SpellsMoment " 2/29/2024\t12:05 pM\n".toList ['2', '0', '2', '4'] ⟨2024, 2, 29⟩
      (some ⟨12, 5, none, some .afternoon⟩) :=
    show SpellsMoment ([' '] ++ ("2/29/2024".toList ++ (['\t'] ++ "12:05 pM".toList) ++ ['\n']))
        _ _ _ from
      .timestamp rfl hdate (List.cons_ne_nil _ _) rfl htime rfl
  obtain ⟨hnames, hmoment, -⟩ := ofText_spelled hspell hyear (by simp)
  have hexists : (Date.mk 2024 2 29).Exists := by decide
  obtain ⟨moment, hok⟩ := hnames.mpr ⟨hexists, by simp [WrittenTime.InRange]⟩
  rw [hok, (hmoment moment hok).1]
  rfl

/-- What an accepted literal names is written in the standard form and read again from it, its year
has four digits, and its numbers are in range: exactly if the year has no sign and the second is not
60. -/
theorem stable_iff_of_ofText (h : Moment.ofText raw = .ok moment) :
    (∃ field, YearField raw field) ∧
      ∀ field, YearField raw field →
        ((field.length = 4 ∧ field.all Char.isDigit = true) ∧
            Standard moment.iso.toList moment ∧ moment.Proper ∧
            Moment.ofText moment.iso = .ok moment ↔
          ('+' ∉ field ∧ '-' ∉ field) ∧ ∀ clock ∈ moment.clock?, clock.second ≠ 60) := by
  obtain ⟨hdate, hreal⟩ := Written.of_moment (ofText_eq_ok.mp h)
  have hword : ∀ c ∈ firstWord raw.toList, Text.isBlank c = false := by
    intro c hc
    simpa using List.all_eq_true.mp List.all_takeWhile c hc
  obtain ⟨found, hfound⟩ := Written.exists_of_date hword hdate
  refine ⟨⟨found, _, hfound⟩, ?_⟩
  rintro field ⟨date, hspell⟩
  obtain ⟨rfl, hcalendar, hlength⟩ := Written.of_date hspell hdate
  have hexists := (Date.isReal_iff.mp hcalendar).1
  constructor
  · rintro ⟨⟨-, hdigits⟩, -, ⟨-, hproper⟩, -⟩
    have hno {c : Char} (hc : c.isDigit = false) : c ∉ field := by
      intro hmem
      rw [List.all_eq_true.mp hdigits c hmem] at hc
      cases hc
    refine ⟨⟨hno rfl, hno rfl⟩, fun clock hclock => ?_⟩
    have hsecond := (hproper clock hclock).2.2
    omega
  · rintro ⟨⟨hplus, hminus⟩, hsecond⟩
    have hfour := hlength hminus
    obtain ⟨value, hvalue⟩ := hspell.spellsYear.exists_numeral hplus hminus
    have hy : Numeral 4 4 field value :=
      hvalue.ofLength (Nat.le_of_eq hfour.symm) (Nat.le_of_eq hfour)
    obtain ⟨hleast, hmost⟩ := hspell.year_range hy
    have hstandard := standard_iso hexists hleast hmost hreal
    refine ⟨⟨hfour, hy.digits⟩, hstandard, ⟨hexists, ?_⟩, ?_⟩
    · intro clock hclock
      obtain ⟨hhour, hminute, hmost⟩ := hreal clock hclock
      exact ⟨hhour, hminute, Nat.lt_succ_iff.mp (Nat.lt_of_le_of_ne hmost (hsecond clock hclock))⟩
    · exact ofText_eq_ok.mpr (hstandard.moment_eq hexists hreal)

theorem stable_iff_of_ofText_afternoon :
    Moment.ofText "1/31/2024 3:30:15 PM" = .ok (.timestamp ⟨2024, 1, 31⟩ ⟨15, 30, 15⟩) ∧
      Moment.ofText (Moment.timestamp ⟨2024, 1, 31⟩ ⟨15, 30, 15⟩).iso =
        .ok (.timestamp ⟨2024, 1, 31⟩ ⟨15, 30, 15⟩) := by
  have hok : Moment.ofText "1/31/2024 3:30:15 PM" =
      .ok (.timestamp ⟨2024, 1, 31⟩ ⟨15, 30, 15⟩) := rfl
  have hmonth : Numeral 1 2 ['1'] 1 := by decide
  have hday : Numeral 1 2 ['3', '1'] 31 := by decide
  have hyear : Numeral 1 4 ['2', '0', '2', '4'] 2024 := by decide
  have hdate : SpellsDate "1/31/2024".toList ['2', '0', '2', '4'] ⟨2024, 1, 31⟩ :=
    .monthFirst hmonth hday (.plain hyear)
  have hword : firstWord "1/31/2024 3:30:15 PM".toList = "1/31/2024".toList := by decide
  have hstable := (stable_iff_of_ofText hok).2 ['2', '0', '2', '4'] ⟨_, hword ▸ hdate⟩
  exact ⟨hok, (hstable.mpr ⟨by decide, by simp [Moment.clock?]⟩).2.2.2⟩

/-- The first of January of the year -234 is accepted, and its standard form is not. -/
theorem not_stable_of_minus_sign :
    ¬∀ (raw : String) (moment : Moment), Moment.ofText raw = .ok moment →
      (∃ field, YearField raw field ∧ field.length = 4 ∧ field.all Char.isDigit = true) ∧
        Standard moment.iso.toList moment ∧ moment.Proper ∧
        Moment.ofText moment.iso = .ok moment := by
  intro h
  have hread : Moment.ofText "1/1/-234" = .ok (.day ⟨-234, 1, 1⟩) := rfl
  have hreread : Moment.ofText (Moment.day ⟨-234, 1, 1⟩).iso = .error (.badDate "-0234-01-01") :=
    rfl
  have hstable := (h "1/1/-234" (.day ⟨-234, 1, 1⟩) hread).2.2.2
  rw [hreread] at hstable
  cases hstable

end JetSql
