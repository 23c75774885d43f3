/-
Words in upper and lower case.

Only the letters of ASCII have two cases, so both are told character by character, and words are the
same up to case (`sameWord`) exactly if their upper cases are equal.
-/

import JetSql.Text.Word
import Mathlib.Tactic.SplitIfs

namespace JetSql.Text

variable {a b : String} {f g : Char → Char}

/-! ### Character by character -/

theorem map_eq_iff : a.map f = b ↔ a.toList.map f = b.toList := by
  rw [← String.toList_inj, String.toList_map]

theorem toUpper_eq (upper : String) (h : a.toList.map Char.toUpper = upper.toList) :
    a.toUpper = upper :=
  map_eq_iff.mpr h

theorem toLower_eq (lower : String) (h : a.toList.map Char.toLower = lower.toList) :
    a.toLower = lower :=
  map_eq_iff.mpr h

theorem map_map_of_forall (h : ∀ c, g (f c) = g c) (s : String) : (s.map f).map g = s.map g := by
  rw [map_eq_iff, String.toList_map, String.toList_map, List.map_map]
  exact List.map_congr_left fun c _ => h c

/-! ### Both cases -/

theorem toNat_toUpper (c : Char) : c.toUpper.toNat =
    if 97 ≤ c.toNat ∧ c.toNat ≤ 122 then c.toNat - 32 else c.toNat := by
  have hdown : ('A'.val - 'a'.val).toNat = 2 ^ 32 - 32 := by decide
  have hrange : ('a'.val ≤ c.val ∧ c.val ≤ 'z'.val) = (97 ≤ c.val.toNat ∧ c.val.toNat ≤ 122) := by
    rw [UInt32.le_iff_toNat_le, UInt32.le_iff_toNat_le]
    rfl
  unfold Char.toUpper Char.toNat
  simp only [hrange]
  split
  · rename_i h
    rw [UInt32.toNat_add, hdown]
    omega
  · rfl

theorem toNat_toLower (c : Char) : c.toLower.toNat =
    if 65 ≤ c.toNat ∧ c.toNat ≤ 90 then c.toNat + 32 else c.toNat := by
  have hup : ('a'.val - 'A'.val).toNat = 32 := by decide
  have hrange : (c.val ≥ 'A'.val ∧ c.val ≤ 'Z'.val) = (65 ≤ c.val.toNat ∧ c.val.toNat ≤ 90) := by
    rw [ge_iff_le, UInt32.le_iff_toNat_le, UInt32.le_iff_toNat_le]
    rfl
  unfold Char.toLower Char.toNat
  simp only [hrange]
  split
  · rename_i h
    rw [UInt32.toNat_add, hup]
    omega
  · rfl

theorem toUpper_toUpper (s : String) : s.toUpper.toUpper = s.toUpper := by
  refine map_map_of_forall (fun c => ?_) s
  rw [← Char.toNat_inj, toNat_toUpper c.toUpper, toNat_toUpper c]
  split_ifs <;> omega

theorem toUpper_toLower (s : String) : s.toLower.toUpper = s.toUpper := by
  refine map_map_of_forall (fun c => ?_) s
  rw [← Char.toNat_inj, toNat_toUpper c.toLower, toNat_toUpper c, toNat_toLower c]
  split_ifs <;> omega

theorem toLower_toUpper (s : String) : s.toUpper.toLower = s.toLower := by
  refine map_map_of_forall (fun c => ?_) s
  rw [← Char.toNat_inj, toNat_toLower c.toUpper, toNat_toLower c, toNat_toUpper c]
  split_ifs <;> omega

/-- **Words that are the same up to case are those of one upper case.** -/
theorem sameWord_iff : sameWord a b = true ↔ a.toUpper = b.toUpper := by
  rw [sameWord, beq_iff_eq]
  constructor
  · intro h
    rw [← toUpper_toLower a, h, toUpper_toLower]
  · intro h
    rw [← toLower_toUpper a, h, toLower_toUpper]

theorem sameWord_eq_decide :
    sameWord a b = decide (a.toList.map Char.toUpper = b.toList.map Char.toUpper) := by
  rw [Bool.eq_iff_iff, sameWord_iff, decide_eq_true_iff, String.toUpper, String.toUpper, map_eq_iff,
    String.toList_map]

end JetSql.Text
