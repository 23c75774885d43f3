/-
Sets of code points, written as closed intervals. The tables of Unicode properties beside this file
are values of `Ranges`.
-/

namespace JetSql.Text

/-- A set of code points, as closed intervals. -/
abbrev Ranges := List (Nat × Nat)

/-- Whether a code point lies in one of the intervals. -/
def Ranges.contains (ranges : Ranges) (codePoint : Nat) : Bool :=
  ranges.any fun (low, high) => low ≤ codePoint && codePoint ≤ high

theorem Ranges.contains_iff {ranges : Ranges} {codePoint : Nat} :
    ranges.contains codePoint = true ↔
      ∃ interval ∈ ranges, interval.1 ≤ codePoint ∧ codePoint ≤ interval.2 := by
  simp [Ranges.contains]

end JetSql.Text
