/-
Written times of day.

`SpellsTime` says how a time is spelled: an hour and a minute, then perhaps a second, then perhaps
the half of the day. Four forms are tried on a text in turn, and only one of them can fit.

* **`time_spelled`:** a time is read exactly if its numbers are in range, and then as the time of
  the 24-hour day that it names.
-/

import JetSql.Proofs.Calendar.Date

namespace JetSql

/-! ### Times as they are written -/

/-- A half of the day. -/
inductive DayHalf where
  | forenoon | afternoon
deriving DecidableEq, Repr

/-- The two letters that name a half of the day. -/
def DayHalf.letters : DayHalf → List Char
  | .forenoon => ['A', 'M']
  | .afternoon => ['P', 'M']

/-- The hour of the 24-hour day that an hour is. Hour twelve begins either half of the day. -/
def dayHour : Option DayHalf → Nat → Nat
  | none, hour => hour
  | some .forenoon, hour => if hour = 12 then 0 else hour
  | some .afternoon, hour => if hour = 12 then 12 else hour + 12

/-- The parts of a written time. Without a half of the day it is a time of the 24-hour day. -/
structure WrittenTime where
  hour : Nat
  minute : Nat
  second? : Option Nat
  half? : Option DayHalf
deriving DecidableEq, Repr

namespace WrittenTime

/-- Whether the hour and the minute are in range. -/
def InRange (time : WrittenTime) : Prop :=
  (match time.half? with
    | none => time.hour ≤ 23
    | some _ => 1 ≤ time.hour ∧ time.hour ≤ 12) ∧
  time.minute ≤ 59

/-- The time of the 24-hour day that is written, at the full minute unless a second is. -/
def clock (time : WrittenTime) : TimeOfDay :=
  ⟨dayHour time.half? time.hour, time.minute, time.second?.getD 0⟩

end WrittenTime

/-- A second as it is spelled, with the colon before it, or none. -/
inductive SpellsSecond : List Char → Option Nat → Prop where
  | missing : SpellsSecond [] none
  | given {text : List Char} {second : Nat} :
      Numeral 1 2 text second → SpellsSecond (':' :: text) (some second)

/-- A half of the day as it is spelled, its letters in any case and blanks before them, or none. -/
inductive SpellsHalf : List Char → Option DayHalf → Prop where
  | missing : SpellsHalf [] none
  | given {gap letters : List Char} {half : DayHalf} :
      gap.all Text.isBlank = true → letters.map Char.toUpper = half.letters →
        SpellsHalf (gap ++ letters) (some half)

/-- A time as it is spelled. -/
inductive SpellsTime : List Char → WrittenTime → Prop where
  | mk {h m s k : List Char} {hour minute : Nat} {second? : Option Nat} {half? : Option DayHalf} :
      Numeral 1 2 h hour → Numeral 1 2 m minute → SpellsSecond s second? → SpellsHalf k half? →
        SpellsTime (h ++ ':' :: (m ++ (s ++ k))) ⟨hour, minute, second?, half?⟩

variable {cs rest text h m s k letters : List Char} {c : Char} {hour minute second : Nat}
  {second? : Option Nat} {half : DayHalf} {half? : Option DayHalf} {written : WrittenTime}
  {clock clock' : TimeOfDay}

/-! ### The letters of a half -/

/-- What becomes a capital letter in upper case is a letter. -/
theorem toNat_of_isUpper_toUpper (hupper : c.toUpper.isUpper = true) :
    'A'.toNat ≤ c.toNat ∧ c.toNat ≤ 'z'.toNat := by
  by_cases hlower : 'a'.val ≤ c.val ∧ c.val ≤ 'z'.val
  · exact ⟨Nat.le_trans (by decide) (UInt32.le_iff_toNat_le.mp hlower.1),
      UInt32.le_iff_toNat_le.mp hlower.2⟩
  · have hsame : c.toUpper = c := dif_neg hlower
    have hcapital : 'A'.val ≤ c.val ∧ c.val ≤ 'Z'.val := of_decide_eq_true (hsame ▸ hupper)
    exact ⟨UInt32.le_iff_toNat_le.mp hcapital.1,
      Nat.le_trans (UInt32.le_iff_toNat_le.mp hcapital.2) (by decide)⟩

theorem DayHalf.toNat_of_letters (hletters : letters.map Char.toUpper = half.letters)
    (hc : c ∈ letters) : 'A'.toNat ≤ c.toNat ∧ c.toNat ≤ 'z'.toNat := by
  have hupper : half.letters.all Char.isUpper = true := by cases half <;> rfl
  rw [← hletters, List.all_map] at hupper
  exact toNat_of_isUpper_toUpper (List.all_eq_true.mp hupper c hc)

theorem DayHalf.notBlank (hletters : letters.map Char.toUpper = half.letters) :
    ∀ c ∈ letters, Text.isBlank c = false := by
  intro c hc
  obtain ⟨hleast, hmost⟩ := toNat_of_letters hletters hc
  exact Text.isBlank_eq_false (Nat.lt_of_lt_of_le (by decide) hleast)
    (Nat.lt_of_le_of_lt hmost (by decide))

theorem DayHalf.exists_of_letters (hletters : letters.map Char.toUpper = half.letters) :
    ∃ a m, letters = [a, m] := by
  cases half with
  | forenoon | afternoon =>
    obtain ⟨a, rest, rfl, -, hrest⟩ := List.map_eq_cons_iff.mp hletters
    obtain ⟨m, rest, rfl, -, hnil⟩ := List.map_eq_cons_iff.mp hrest
    obtain rfl := List.map_eq_nil_iff.mp hnil
    exact ⟨a, m, rfl⟩

theorem DayHalf.ne_nil (hletters : letters.map Char.toUpper = half.letters) : letters ≠ [] := by
  obtain ⟨a, m, rfl⟩ := exists_of_letters hletters
  exact List.cons_ne_nil a [m]

/-- Where the half of the day begins, no number and no colon does. -/
theorem SpellsHalf.head (hhalf : SpellsHalf k half?) :
    k.head?.any (fun c => c.isDigit || c == ':') = false := by
  cases hhalf with
  | missing => rfl
  | @given gap letters half hgap hletters =>
    have hblank (c : Char) (hc : Text.isBlank c = true) : (c.isDigit || c == ':') = false := by
      rw [Bool.or_eq_false_iff, beq_eq_false_iff_ne]
      refine ⟨Bool.eq_false_iff.mpr fun hdigit => ?_, ?_⟩
      · rw [Text.isBlank_eq_false_of_isDigit hdigit] at hc
        cases hc
      · rintro rfl
        cases hc
    have hletter (c : Char) (hc : c ∈ letters) : (c.isDigit || c == ':') = false := by
      have hleast := (DayHalf.toNat_of_letters hletters hc).1
      rw [Bool.or_eq_false_iff, beq_eq_false_iff_ne]
      refine ⟨Bool.eq_false_iff.mpr fun hdigit => ?_, ?_⟩
      · exact absurd (Nat.le_trans hleast (Char.isDigit_iff_toNat.mp hdigit).2) (by decide)
      · rintro rfl
        exact absurd hleast (by decide)
    cases gap with
    | nil =>
      cases letters with
      | nil => rfl
      | cons c letters => exact hletter c List.mem_cons_self
    | cons c gap => exact hblank c (List.all_eq_true.mp hgap c List.mem_cons_self)

/-- A time begins with a digit. -/
theorem SpellsTime.head? (h : SpellsTime text written) : text.head?.any Text.isBlank = false := by
  obtain ⟨hh, -, -, -⟩ := h
  obtain ⟨c, rest, rfl, hc⟩ := hh.exists_cons
  exact Text.isBlank_eq_false_of_isDigit hc

/-- A time ends with a digit or a letter. -/
theorem SpellsTime.getLast? (h : SpellsTime text written) (cs : List Char) :
    (cs ++ text).getLast?.any Text.isBlank = false := by
  obtain ⟨-, hm, hs, hk⟩ := h
  rename_i h m s k hour minute second? half?
  cases hk with
  | missing =>
    cases hs with
    | missing =>
      have htext : cs ++ (h ++ ':' :: (m ++ ([] ++ []))) = cs ++ (h ++ [':']) ++ m := by simp
      rw [htext]
      exact Text.getLast?_append_any hm.ne_nil hm.notBlank _
    | @given text second hsecond =>
      have htext : cs ++ (h ++ ':' :: (m ++ (':' :: text ++ []))) =
          cs ++ (h ++ ':' :: (m ++ [':'])) ++ text := by simp
      rw [htext]
      exact Text.getLast?_append_any hsecond.ne_nil hsecond.notBlank _
  | @given gap letters half hgap hletters =>
    have htext : cs ++ (h ++ ':' :: (m ++ (s ++ (gap ++ letters)))) =
        cs ++ (h ++ ':' :: (m ++ (s ++ gap))) ++ letters := by simp
    rw [htext]
    exact Text.getLast?_append_any (DayHalf.ne_nil hletters) (DayHalf.notBlank hletters) _

namespace Written

/-! ### The parts of a time -/

theorem hourMinute_spelled (hh : Numeral 1 2 h hour) (hm : Numeral 1 2 m minute)
    (rest : List Char) (hrest : rest.head?.any Char.isDigit = false) :
    hourMinute (h ++ ':' :: (m ++ rest)) = some ((hour, minute), rest) := by
  simp [hourMinute, mark, field_numeral hh (':' :: (m ++ rest)) (.inr rfl),
    field_numeral hm rest (.inr hrest)]

theorem isAfternoon_spelled {gap : List Char} (hgap : gap.all Text.isBlank = true)
    (hletters : letters.map Char.toUpper = half.letters) :
    isAfternoon (gap ++ letters) = some (decide (half = .afternoon), []) := by
  rw [isAfternoon, Text.trimStart_append hgap,
    Text.trimStart_of_forall (DayHalf.notBlank hletters)]
  obtain ⟨a, m, rfl⟩ := DayHalf.exists_of_letters hletters
  cases half with
  | forenoon | afternoon =>
    obtain ⟨ha, hm⟩ := List.cons.inj hletters
    simp [ha, List.head_eq_of_cons_eq hm]

theorem realTime_eq_some : realTime clock rest = some clock' ↔
    clock = clock' ∧ rest = [] ∧ clock.IsReal := by
  rw [realTime]
  split <;> rename_i h <;> simp [h]

theorem hourOfDay_eq_dayHour (h : 1 ≤ hour ∧ hour ≤ 12) :
    hourOfDay hour (decide (half = .afternoon)) = dayHour (some half) hour := by
  cases half with
  | forenoon =>
    simp only [hourOfDay, dayHour, reduceCtorEq, decide_false, Bool.false_eq_true, if_false]
    split <;> omega
  | afternoon =>
    simp only [hourOfDay, dayHour, decide_true, if_true]
    split <;> omega

theorem dayHour_lt (h : 1 ≤ hour ∧ hour ≤ 12) : dayHour (some half) hour ≤ 23 := by
  cases half with
  | forenoon =>
    rw [dayHour]
    split <;> omega
  | afternoon =>
    rw [dayHour]
    split <;> omega

/-- A time of the 12-hour day is read if its hour is one, and nothing follows the half. -/
theorem halfDayTime_spelled {gap : List Char} (hgap : gap.all Text.isBlank = true)
    (hletters : letters.map Char.toUpper = half.letters) :
    halfDayTime hour minute second (gap ++ letters) =
      if 1 ≤ hour ∧ hour ≤ 12 then realTime ⟨dayHour (some half) hour, minute, second⟩ []
      else none := by
  simp only [halfDayTime, isAfternoon_spelled hgap hletters, Option.bind_eq_bind, Option.bind_some]
  split
  · rename_i hhour
    rw [hourOfDay_eq_dayHour hhour]
  · rfl

/-! ### The time -/

/-- Of the four forms two remain, one of either kind of day. -/
theorem time_forms (hh : Numeral 1 2 h hour) (hm : Numeral 1 2 m minute)
    (hs : SpellsSecond s second?) (hk : SpellsHalf k half?) :
    Written.time (h ++ ':' :: (m ++ (s ++ k))) =
      (realTime ⟨hour, minute, second?.getD 0⟩ k <|>
        halfDayTime hour minute (second?.getD 0) k) := by
  have hhead := hk.head
  have hdigit : k.head?.any Char.isDigit = false := by
    cases k with
    | nil => rfl
    | cons c k => exact (Bool.or_eq_false_iff.mp hhead).1
  cases hs with
  | missing =>
    have hmark : mark ':' k = none := by
      cases k with
      | nil => rfl
      | cons c k => exact if_neg (beq_eq_false_iff_ne.mp (Bool.or_eq_false_iff.mp hhead).2)
    have hread := hourMinute_spelled hh hm k hdigit
    simp [Written.time, hourMinuteSecond, hread, hmark]
  | @given text second hsecond =>
    have hread := hourMinute_spelled hh hm (':' :: (text ++ k)) rfl
    have hcolon : isAfternoon (':' :: (text ++ k)) = none := by
      rw [isAfternoon, Text.trimStart_eq_self rfl]
      cases text ++ k <;> simp
    simp [Written.time, hourMinuteSecond, hread, mark, field_numeral hsecond k (.inr hdigit),
      halfDayTime, hcolon, realTime]

/-- A time is read exactly if it is in range. -/
theorem time_spelled (h : SpellsTime text written) (hsecond : ∀ s ∈ written.second?, s ≤ 60) :
    Written.time text = some clock ↔ written.InRange ∧ written.clock = clock := by
  obtain ⟨hh, hm, hs, hk⟩ := h
  rename_i hour minute second? half?
  have hsixty : second?.getD 0 ≤ 60 := by
    cases second? with
    | none => exact Nat.zero_le _
    | some second => exact hsecond second rfl
  rw [time_forms hh hm hs hk]
  cases hk with
  | missing =>
    have hhalf : halfDayTime hour minute (second?.getD 0) [] = none := rfl
    have hnone : (realTime ⟨hour, minute, second?.getD 0⟩ [] <|> none) =
        realTime ⟨hour, minute, second?.getD 0⟩ [] := by simp
    rw [hhalf, hnone, realTime_eq_some]
    constructor
    · rintro ⟨rfl, -, hhour, hminute, -⟩
      exact ⟨⟨hhour, hminute⟩, rfl⟩
    · rintro ⟨⟨hhour, hminute⟩, rfl⟩
      exact ⟨rfl, rfl, hhour, hminute, hsixty⟩
  | @given gap letters half hgap hletters =>
    have hreal : realTime ⟨hour, minute, second?.getD 0⟩ (gap ++ letters) = none :=
      if_neg fun h => DayHalf.ne_nil hletters (List.append_eq_nil_iff.mp h.1).2
    rw [hreal, halfDayTime_spelled hgap hletters]
    change (if _ then _ else _) = _ ↔ _
    split
    · rename_i hhour
      rw [realTime_eq_some]
      constructor
      · rintro ⟨rfl, -, -, hminute, -⟩
        exact ⟨⟨hhour, hminute⟩, rfl⟩
      · rintro ⟨⟨-, hminute⟩, rfl⟩
        exact ⟨rfl, rfl, dayHour_lt hhour, hminute, hsixty⟩
    · rename_i hhour
      simp [WrittenTime.InRange, hhour]

theorem isReal_of_realTime (h : realTime clock rest = some clock') : clock'.IsReal := by
  obtain ⟨rfl, -, hreal⟩ := realTime_eq_some.mp h
  exact hreal

theorem isReal_of_halfDayTime (h : halfDayTime hour minute second cs = some clock) :
    clock.IsReal := by
  simp only [halfDayTime, Option.bind_eq_bind, Option.bind_eq_some_iff,
    Option.ite_none_right_eq_some] at h
  obtain ⟨_, -, -, h⟩ := h
  exact isReal_of_realTime h

/-- What is read as a time is one. -/
theorem isReal_of_time (h : Written.time cs = some clock) : clock.IsReal := by
  simp only [Written.time, Option.orElse_eq_orElse, Option.orElse_eq_or, Option.or_eq_some_iff,
    Option.bind_eq_bind, Option.bind_eq_some_iff] at h
  rcases h with ⟨_, -, h⟩ | ⟨-, ⟨_, -, h⟩ | ⟨-, ⟨_, -, h⟩ | ⟨-, _, -, h⟩⟩⟩
  · exact isReal_of_realTime h
  · exact isReal_of_realTime h
  · exact isReal_of_halfDayTime h
  · exact isReal_of_halfDayTime h

end Written

end JetSql
