/-
Trimming.

* **`trim_trim`:** trimmed text stays as it is.
* **`trim_framed`:** blanks around a text are trimmed off.
-/

import JetSql.Text.Blank

namespace JetSql.Text

variable {cs : List Char}

theorem trimStart_eq_self (h : cs.head?.any isBlank = false) : trimStart cs = cs := by
  cases cs with
  | nil => rfl
  | cons c cs =>
    rw [List.head?_cons, Option.any_some] at h
    exact List.dropWhile_cons_of_neg (by simp [h])

/-- A text without blanks has none to trim off. -/
theorem trimStart_of_forall (h : ∀ c ∈ cs, isBlank c = false) : trimStart cs = cs := by
  refine trimStart_eq_self ?_
  cases cs with
  | nil => rfl
  | cons c cs => exact h c List.mem_cons_self

theorem head?_trimStart (cs : List Char) : (trimStart cs).head?.any isBlank = false := by
  have h := List.head?_dropWhile_not isBlank cs
  rw [trimStart]
  cases hd : (cs.dropWhile isBlank).head? with
  | none => rfl
  | some c => simpa [hd] using h

theorem trimEnd_isPrefix (cs : List Char) : trimEnd cs <+: cs := by
  rw [trimEnd, ← List.reverse_suffix, List.reverse_reverse]
  exact List.dropWhile_suffix isBlank

theorem trimEnd_trimEnd (cs : List Char) : trimEnd (trimEnd cs) = trimEnd cs := by
  rw [trimEnd, trimEnd, List.reverse_reverse, trimStart_eq_self (head?_trimStart _)]

/-- Trimmed text stays as it is. -/
theorem trim_trim (cs : List Char) : trim (trim cs) = trim cs := by
  have hstart : trimStart (trimEnd (trimStart cs)) = trimEnd (trimStart cs) := by
    refine trimStart_eq_self ?_
    obtain ⟨rest, hrest⟩ := trimEnd_isPrefix (trimStart cs)
    have h := head?_trimStart cs
    rw [← hrest] at h
    cases hcs : trimEnd (trimStart cs) with
    | nil => rfl
    | cons c cs => simpa [hcs] using h
  rw [trim, trim, hstart, trimEnd_trimEnd]

/-- The blanks of ASCII end with the space. -/
theorem isBlank_eq_false {c : Char} (h : ' '.toNat < c.toNat) (hascii : c.toNat < 0x80) :
    isBlank c = false := by
  have hblank : c ≠ ' ' := by
    rintro rfl
    exact absurd h (by decide)
  simp only [Char.reduceToNat] at h
  simp only [isBlank, hascii, if_true, Bool.or_eq_false_iff, beq_eq_false_iff_ne, ne_eq, hblank,
    not_false_eq_true, true_and, Bool.and_eq_false_iff, decide_eq_false_iff_not]
  omega

theorem isBlank_eq_false_of_isDigit {c : Char} (h : c.isDigit = true) : isBlank c = false := by
  have hdigit := Char.isDigit_iff_toNat.mp h
  simp only [Char.reduceToNat] at hdigit
  exact isBlank_eq_false (by simp only [Char.reduceToNat]; omega) (by omega)

/-- A blank before a text is trimmed off. -/
theorem trim_cons {c : Char} (h : isBlank c = true) (cs : List Char) : trim (c :: cs) = trim cs := by
  rw [trim, trim, trimStart, List.dropWhile_cons_of_pos h, trimStart]

/-- What ends with a text that has no blanks does not end with a blank. -/
theorem getLast?_append_any {text : List Char} (hne : text ≠ [])
    (h : ∀ c ∈ text, isBlank c = false) (cs : List Char) :
    (cs ++ text).getLast?.any isBlank = false := by
  rw [List.getLast?_append, List.getLast?_eq_some_getLast hne, Option.some_or, Option.any_some]
  exact h _ (List.getLast_mem hne)

theorem trimEnd_eq_self (h : cs.getLast?.any isBlank = false) : trimEnd cs = cs := by
  rw [← List.head?_reverse] at h
  rw [trimEnd, trimStart_eq_self h, List.reverse_reverse]

/-- A text that neither begins nor ends with a blank stays as it is. -/
theorem trim_eq_self (hfirst : cs.head?.any isBlank = false)
    (hlast : cs.getLast?.any isBlank = false) : trim cs = cs := by
  rw [trim, trimStart_eq_self hfirst, trimEnd_eq_self hlast]

/-- A text without blanks stays as it is. -/
theorem trim_of_forall (h : ∀ c ∈ cs, isBlank c = false) : trim cs = cs := by
  rw [trim, trimStart_of_forall h]
  by_cases hne : cs = []
  · rw [hne]
    rfl
  · exact trimEnd_eq_self (getLast?_append_any hne h [])

theorem trimStart_append {blanks : List Char} (h : blanks.all isBlank = true) (cs : List Char) :
    trimStart (blanks ++ cs) = trimStart cs :=
  List.dropWhile_append_of_pos (List.all_eq_true.mp h)

theorem trimEnd_append {blanks : List Char} (h : blanks.all isBlank = true) (cs : List Char) :
    trimEnd (cs ++ blanks) = trimEnd cs := by
  rw [trimEnd, List.reverse_append, trimStart_append (by rwa [List.all_reverse]), ← trimEnd]

/-- Blanks around a text are trimmed off. -/
theorem trim_framed {before after : List Char} (hbefore : before.all isBlank = true)
    (hafter : after.all isBlank = true) (cs : List Char) :
    trim (before ++ (cs ++ after)) = trim cs := by
  rw [trim, trim, trimStart_append hbefore, trimStart, List.dropWhile_append]
  split
  · rename_i hcs
    have hnil := trimStart_append hafter []
    rw [List.append_nil] at hnil
    rw [← trimStart, hnil]
    exact congrArg trimEnd (List.isEmpty_iff.mp hcs).symm
  · exact trimEnd_append hafter _

theorem all_trim {p : Char → Bool} (h : cs.all p = true) : (trim cs).all p = true := by
  rw [List.all_eq_true] at h ⊢
  intro c hc
  exact h c (List.dropWhile_subset isBlank ((trimEnd_isPrefix _).subset hc))

end JetSql.Text
