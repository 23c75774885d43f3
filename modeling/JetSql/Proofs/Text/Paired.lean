/-
Insides in which every delimiter is one of a pair.

* **`paired_splitBody`:** what `splitBody` reads off a text is such an inside.
* **`splitBody_of_paired`:** such an inside is read off up to the delimiter that closes it.
-/

import JetSql.Text.Quoted

namespace JetSql.Text

/-- Whether the delimiters of a text stand in pairs, from the left. -/
def paired (delimiter : Char) : List Char → Bool
  | [] => true
  | [c] => c != delimiter
  | c :: d :: rest =>
    if c = delimiter then d == delimiter && paired delimiter rest else paired delimiter (d :: rest)

variable {delimiter : Char}

theorem paired_cons {c : Char} (h : c ≠ delimiter) (cs : List Char) :
    paired delimiter (c :: cs) = paired delimiter cs := by
  cases cs <;> simp [paired, h]

/-- The inside that is read off a text is paired. -/
theorem paired_splitBody (cs : List Char) : paired delimiter (splitBody delimiter cs).1 = true := by
  fun_induction splitBody delimiter cs with
  | case6 c d rest hc body after hbody ih =>
    rw [hbody] at ih
    rwa [paired_cons hc]
  | _ => simp_all [paired]

/-- The delimiter that ends an inside is not one of a pair. -/
theorem head?_ne_of_splitBody {cs rest : List Char}
    (h : (splitBody delimiter cs).2 = delimiter :: rest) : rest.head? ≠ some delimiter := by
  fun_induction splitBody delimiter cs with
  | case5 d rest' hd =>
    obtain rfl : d :: rest' = rest := by simpa using h
    simpa using hd
  | _ => simp_all

/-- A paired inside is read off up to the delimiter that closes it. -/
theorem splitBody_of_paired {body rest : List Char} (hbody : paired delimiter body = true)
    (hrest : rest.head? ≠ some delimiter) :
    splitBody delimiter (body ++ delimiter :: rest) = (body, delimiter :: rest) := by
  fun_induction paired delimiter body with
  | case1 =>
    cases rest with
    | nil => simp [splitBody]
    | cons c rest =>
      have hc : c ≠ delimiter := by simpa using hrest
      simp [splitBody, hc]
  | case2 c =>
    have hc : c ≠ delimiter := by simpa using hbody
    cases rest with
    | nil => simp [splitBody, hc]
    | cons d rest =>
      have hd : d ≠ delimiter := by simpa using hrest
      simp [splitBody, hc, hd]
  | case3 d rest' ih =>
    simp only [Bool.and_eq_true, beq_iff_eq] at hbody
    simp [splitBody, hbody.1, ih hbody.2]
  | case4 c d rest' hc ih =>
    rw [List.cons_append, List.cons_append, splitBody, if_neg hc, ← List.cons_append, ih hbody]

/-- Doubling makes every text an inside. -/
theorem paired_double (cs : List Char) : paired delimiter (double delimiter cs) = true := by
  induction cs with
  | nil => rfl
  | cons c cs ih =>
    by_cases h : c = delimiter
    · simp [double, paired, h, ih]
    · rw [double, if_neg h, paired_cons h, ih]

theorem double_append (cs ds : List Char) :
    double delimiter (cs ++ ds) = double delimiter cs ++ double delimiter ds := by
  induction cs with
  | nil => rfl
  | cons c cs ih =>
    simp only [List.cons_append, double, ih]
    split <;> rfl

/-- Reading pairs as one and then doubling gives an inside again. -/
theorem double_undouble {cs : List Char} (h : paired delimiter cs = true) :
    double delimiter (undouble delimiter cs) = cs := by
  fun_induction paired delimiter cs with
  | case1 => rfl
  | case2 c =>
    have hc : c ≠ delimiter := by simpa using h
    simp [undouble, double, hc]
  | case3 d cs ih =>
    rw [Bool.and_eq_true, beq_iff_eq] at h
    simp [undouble, double, h.1, ih h.2]
  | case4 c d cs hc ih =>
    rw [undouble, if_neg (by simp [hc]), double, if_neg hc, ih h]

/-- Whether delimiters stand in pairs, when perhaps one of a pair went before. -/
def pairedFrom (delimiter : Char) (half : Bool) : List Char → Bool
  | [] => !half
  | c :: cs =>
    if half then c == delimiter && pairedFrom delimiter false cs
    else pairedFrom delimiter (c == delimiter) cs

theorem pairedFrom_false (cs : List Char) :
    pairedFrom delimiter false cs = paired delimiter cs := by
  fun_induction paired delimiter cs with
  | case1 => rfl
  | case2 c => by_cases h : c = delimiter <;> simp [pairedFrom, h, bne]
  | case3 d cs ih => simp [pairedFrom, ih]
  | case4 c d cs h ih =>
    rw [pairedFrom, if_neg Bool.false_ne_true, beq_eq_false_iff_ne.mpr h, ih]

theorem pairedFrom_cons {c : Char} (h : c ≠ delimiter) (half : Bool) (cs : List Char) :
    pairedFrom delimiter half (c :: cs) = (!half && pairedFrom delimiter false cs) := by
  cases half <;> simp [pairedFrom, beq_eq_false_iff_ne.mpr h]

end JetSql.Text
