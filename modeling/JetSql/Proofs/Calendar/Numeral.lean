/-
Numerals: numbers as they are written in digits.

`Numeral` says which number a text writes, and in how many digits. The reader of digits finds a
numeral where one stands and its digits end, and whatever it finds is one.

* **`numeral_zeroPadded`:** a number that is padded with zeros to a width is a numeral of it.
-/

import JetSql.Calendar.Written
import JetSql.Proofs.Text.Trimmed
import Mathlib.Algebra.Group.Nat.Defs

namespace JetSql

/-- A number in at least and at most so many digits. -/
structure Numeral (least most : Nat) (text : List Char) (value : Nat) : Prop where
  digits : text.all Char.isDigit = true
  least_le : least ≤ text.length
  le_most : text.length ≤ most
  value_eq : Nat.ofDigitChars 10 text 0 = value

variable {least most value : Nat} {text rest cs : List Char}

instance : Decidable (Numeral least most text value) :=
  decidable_of_iff
    (text.all Char.isDigit = true ∧ least ≤ text.length ∧ text.length ≤ most ∧
      Nat.ofDigitChars 10 text 0 = value)
    ⟨fun ⟨hdigits, hleast, hmost, hvalue⟩ => ⟨hdigits, hleast, hmost, hvalue⟩,
      fun h => ⟨h.digits, h.least_le, h.le_most, h.value_eq⟩⟩

namespace Numeral

/-- The same numeral with other bounds on its length. -/
theorem ofLength {least' most' : Nat} (h : Numeral least most text value)
    (hleast : least' ≤ text.length) (hmost : text.length ≤ most') :
    Numeral least' most' text value :=
  ⟨h.digits, hleast, hmost, h.value_eq⟩

/-- The bounds may be wider. -/
theorem mono {least' most' : Nat} (h : Numeral least most text value) (hleast : least' ≤ least)
    (hmost : most ≤ most') : Numeral least' most' text value :=
  h.ofLength (Nat.le_trans hleast h.least_le) (Nat.le_trans h.le_most hmost)

/-- A character that is no digit does not stand in a numeral. -/
theorem not_mem {c : Char} (h : Numeral least most text value) (hc : c.isDigit = false) :
    c ∉ text := by
  intro hmem
  rw [List.all_eq_true.mp h.digits c hmem] at hc
  cases hc

theorem notBlank (h : Numeral least most text value) : ∀ c ∈ text, Text.isBlank c = false :=
  fun c hc => Text.isBlank_eq_false_of_isDigit (List.all_eq_true.mp h.digits c hc)

/-- A numeral begins with a digit. -/
theorem exists_cons (h : Numeral (least + 1) most text value) :
    ∃ c rest, text = c :: rest ∧ c.isDigit = true := by
  cases htext : text with
  | nil => exact absurd h.least_le (by simp [htext])
  | cons c rest =>
    have hdigits := h.digits
    rw [htext, List.all_cons, Bool.and_eq_true] at hdigits
    exact ⟨c, rest, rfl, hdigits.1⟩

theorem ne_nil (h : Numeral (least + 1) most text value) : text ≠ [] := by
  obtain ⟨c, rest, rfl, -⟩ := h.exists_cons
  exact List.cons_ne_nil c rest

end Numeral

/-! ### Reading -/

namespace Written

/-- The digits at the beginning of a text, as far as they may count. -/
theorem takeWhile_take (hdigits : text.all Char.isDigit = true) (hmost : text.length ≤ most)
    (hrest : text.length = most ∨ rest.head?.any Char.isDigit = false) :
    ((text ++ rest).take most).takeWhile Char.isDigit = text := by
  rw [List.take_append, List.take_of_length_le hmost,
    List.takeWhile_append_of_pos (List.all_eq_true.mp hdigits)]
  have hstop : (rest.take (most - text.length)).takeWhile Char.isDigit = [] := by
    rcases hrest with rfl | hrest
    · rw [Nat.sub_self, List.take_zero, List.takeWhile_nil]
    · cases rest with
      | nil => rw [List.take_nil, List.takeWhile_nil]
      | cons c rest =>
        cases most - text.length with
        | zero => rfl
        | succ n =>
          rw [List.take_succ_cons, List.takeWhile_cons_of_neg]
          simpa using hrest
  rw [hstop, List.append_nil]

/-- A numeral is read if no more digits follow it, or no more would count. -/
theorem digits_numeral (h : Numeral (least + 1) most text value)
    (hrest : text.length = most ∨ rest.head?.any Char.isDigit = false) :
    digits most (text ++ rest) = some (value, rest) := by
  have hne : text.isEmpty = false := List.isEmpty_eq_false_iff.mpr h.ne_nil
  simp only [digits, takeWhile_take h.digits h.le_most hrest, hne, Bool.false_eq_true, if_false,
    List.drop_left, ← h.value_eq, Nat.ofDigitChars_eq_foldl]

/-- What is read is a numeral. -/
theorem exists_of_digits (h : digits most cs = some (value, rest)) :
    ∃ text, cs = text ++ rest ∧ Numeral 1 most text value := by
  simp only [digits] at h
  generalize htaken : (cs.take most).takeWhile Char.isDigit = taken at h
  split at h
  · cases h
  · rename_i hne
    obtain ⟨rfl, rfl⟩ := Prod.mk.inj (Option.some.inj h)
    have hprefix : taken <+: cs := by
      rw [← htaken]
      exact (List.takeWhile_prefix _).trans (List.take_prefix most cs)
    refine ⟨taken, ?_, ?_, ?_, ?_, Nat.ofDigitChars_eq_foldl⟩
    · obtain ⟨after, rfl⟩ := hprefix
      rw [List.drop_left]
    · rw [← htaken]
      exact List.all_takeWhile
    · exact List.length_pos_iff.mpr (by simpa using hne)
    · have hle := (htaken ▸ List.takeWhile_prefix Char.isDigit).length_le
      exact Nat.le_trans hle (List.length_take_le most cs)

/-- A numeral that stands at the beginning of a text is read, blanks being skipped before it. -/
theorem field_numeral (h : Numeral 1 2 text value) (rest : List Char)
    (hrest : text.length = 2 ∨ rest.head?.any Char.isDigit = false) :
    field (text ++ rest) = some (value, rest) := by
  obtain ⟨c, tail, htext, hc⟩ := h.exists_cons
  have hstart : Text.trimStart (text ++ rest) = text ++ rest := by
    refine Text.trimStart_eq_self ?_
    simp [htext, Text.isBlank_eq_false_of_isDigit hc]
  rw [field, hstart, digits_numeral h hrest]

theorem exists_of_field (hcs : ∀ c ∈ cs, Text.isBlank c = false)
    (h : field cs = some (value, rest)) : ∃ text, cs = text ++ rest ∧ Numeral 1 2 text value := by
  rw [field, Text.trimStart_of_forall hcs] at h
  exact exists_of_digits h

end Written

/-! ### Writing -/

/-- The value of a digit. -/
theorem toNat_sub_lt_ten {c : Char} (h : c.isDigit = true) : c.toNat - '0'.toNat < 10 := by
  have hdigit := Char.isDigit_iff_toNat.mp h
  simp only [Char.reduceToNat] at hdigit ⊢
  omega

theorem Numeral.lt (h : Numeral least most text value) : value < 10 ^ text.length := by
  obtain ⟨hdigits, -, -, rfl⟩ := h
  induction text with
  | nil => decide
  | cons c text ih =>
    rw [List.all_cons, Bool.and_eq_true] at hdigits
    have hc := toNat_sub_lt_ten hdigits.1
    rw [Nat.ofDigitChars_cons, Nat.ofDigitChars_eq_ofDigitChars_zero, Nat.mul_zero, Nat.zero_add,
      List.length_cons, Nat.pow_succ]
    calc 10 ^ text.length * (c.toNat - '0'.toNat) + Nat.ofDigitChars 10 text 0
        < 10 ^ text.length * (c.toNat - '0'.toNat) + 10 ^ text.length :=
          Nat.add_lt_add_left (ih hdigits.2) _
      _ = 10 ^ text.length * (c.toNat - '0'.toNat + 1) := (Nat.mul_succ _ _).symm
      _ ≤ 10 ^ text.length * 10 := Nat.mul_le_mul_left _ hc

theorem numeral_zeroPadded {width n : Nat} (hwidth : 0 < width) (h : n < 10 ^ width) :
    Numeral width width (Text.zeroPadded width n).toList n := by
  have hlength : (Nat.toDigits 10 n).length ≤ width :=
    (Nat.length_toDigits_le_iff (by decide) hwidth).mpr h
  have htext : (Text.zeroPadded width n).toList =
      List.replicate (width - (Nat.toDigits 10 n).length) '0' ++ Nat.toDigits 10 n := by
    rw [Text.zeroPadded, Text.padStart, String.toList_append, String.toList_ofList,
      Nat.toString_eq_repr, Nat.toList_repr, ← String.length_toList, Nat.toList_repr]
  have hcount : (Text.zeroPadded width n).toList.length = width := by
    rw [htext, List.length_append, List.length_replicate]
    omega
  refine ⟨?_, Nat.le_of_eq hcount.symm, Nat.le_of_eq hcount, ?_⟩
  · rw [htext, List.all_append, List.all_replicate, Bool.and_eq_true]
    refine ⟨by split <;> rfl, List.all_eq_true.mpr fun c hc => ?_⟩
    exact Nat.isDigit_of_mem_toDigits (by decide) (by decide) hc
  · rw [htext, Nat.ofDigitChars_append, Nat.ofDigitChars_replicate_zero, Nat.mul_zero,
      Nat.ofDigitChars_ten_toDigits]

end JetSql
