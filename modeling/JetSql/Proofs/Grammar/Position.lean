/-
Where a grammar error points, and what it says of the text there.

A source text falls in two where the reading makes no more sense: what lies behind, and what is left.
The place of the error is the line and column right after the first part, and the complaint is about
the second.

* **`ofByte_miss`:** the place is found from a number of bytes: those of what is left, taken from those
  of the source. It is the place right after what lies behind.
* **`position_of_parse`:** all of this holds of every grammar error that a source text ends in.
-/

import JetSql.Proofs.Grammar.Suffix
import JetSql.Proofs.Text.Position
import Mathlib

namespace JetSql

namespace Position

/-! ### Lines and columns -/

/-- The last line of a text is what follows its last line break, and the position right after the text
is a column of that line. -/
theorem exists_lines_of_after (before : List Char) : ∃ earlier current,
    before = earlier ++ current ∧ (earlier = [] ∨ earlier.getLast? = some '\n') ∧ '\n' ∉ current ∧
      after before = ⟨1 + before.count '\n', 1 + current.length⟩ := by
  induction before using List.reverseRecOn with
  | nil => exact ⟨[], [], rfl, .inl rfl, List.not_mem_nil, rfl⟩
  | append_singleton before c ih =>
    obtain ⟨earlier, current, hbefore, hearlier, hcurrent, hafter⟩ := ih
    by_cases hc : c = '\n'
    · subst hc
      refine ⟨before ++ ['\n'], [], (List.append_nil _).symm, .inr (by simp), List.not_mem_nil, ?_⟩
      rw [after_lineBreak, hafter, List.count_append]
      simp [Nat.add_assoc]
    · refine ⟨earlier, current ++ [c], by rw [hbefore, List.append_assoc], hearlier, ?_, ?_⟩
      · simp only [List.mem_append, List.mem_singleton, not_or]
        exact ⟨hcurrent, Ne.symm hc⟩
      · rw [after_char before hc, hafter, List.count_append]
        simp [hc, Nat.add_assoc]

/-! ### Bytes -/

/-- **What lies behind has the bytes of the source less those of what is left.** -/
theorem ofByte_miss {source : String} {before rest : List Char} (h : source.toList = before ++ rest) :
    (String.ofList rest).utf8ByteSize ≤ source.utf8ByteSize ∧
      ofByte source (source.utf8ByteSize - (String.ofList rest).utf8ByteSize) = after before := by
  have hsource : source = String.ofList before ++ String.ofList rest := by
    rw [← String.ofList_append, ← h, String.ofList_toList]
  have hsize : source.utf8ByteSize =
      (String.ofList before).utf8ByteSize + (String.ofList rest).utf8ByteSize := by
    rw [hsource, String.utf8ByteSize_append]
  constructor
  · omega
  · rw [hsize, Nat.add_sub_cancel, ofByte, h, takeBytes_append]

end Position

namespace Grammar

/-! ### Complaints -/

/-- A complaint that tells what is left of a text tells the truth. -/
def Complains (complaint : String) (rest : List Char) : Prop :=
  (complaint = "unexpected end of input" → ∀ c ∈ rest, Text.isBlank c = true) ∧
  ∀ shown, complaint = "unexpected input near '" ++ shown ++ "'" →
    (∃ c ∈ rest, Text.isBlank c = false) ∧ shown.toList = (rest.dropWhile Text.isBlank).take 20

/-- Complaints of the three kinds are told apart by how they begin. -/
theorem named_ne (expectation : Expectation) (text : String) :
    "expected " ++ expectation.text ≠ "un" ++ text := by
  intro h
  have hhead := congrArg (fun complaint : String => complaint.toList.head?) h
  simp at hhead

theorem ended_ne (text : String) : "unexpected end of input" ≠ "unexpected input near '" ++ text := by
  intro h
  have heleventh := congrArg (fun complaint : String => complaint.toList[11]?) h
  simp at heleventh

theorem complains_complaint (rest : List Char) (expected : Option Expectation) :
    Complains (complaint rest expected) rest := by
  cases expected with
  | some expectation =>
    constructor
    · intro h
      exact absurd h (named_ne expectation "expected end of input")
    · intro shown h
      rw [show "unexpected input near '" = "un" ++ "expected input near '" from rfl,
        String.append_assoc, String.append_assoc] at h
      exact absurd h (named_ne expectation _)
  | none =>
    cases htrim : Text.trimStart rest with
    | nil =>
      have hcomplaint : complaint rest none = "unexpected end of input" := by
        simp only [complaint, htrim]
      rw [hcomplaint]
      constructor
      · intro _
        exact List.dropWhile_eq_nil_iff.mp htrim
      · intro shown h
        rw [String.append_assoc] at h
        exact absurd h (ended_ne _)
    | cons c cs =>
      have hcomplaint : complaint rest none =
          "unexpected input near '" ++ String.ofList ((c :: cs).take 20) ++ "'" := by
        simp only [complaint, htrim]
      rw [hcomplaint]
      constructor
      · intro h
        rw [String.append_assoc] at h
        exact absurd h.symm (ended_ne _)
      · intro shown h
        have hshown : String.ofList ((c :: cs).take 20) = shown :=
          String.append_right_inj _ |>.mp (String.append_left_inj _ |>.mp h)
        change rest.dropWhile Text.isBlank = c :: cs at htrim
        have hmem : c ∈ rest.dropWhile Text.isBlank := htrim ▸ List.mem_cons_self
        have hblank : Text.isBlank c = false := by
          have hhead := List.head?_dropWhile_not Text.isBlank rest
          rw [htrim] at hhead
          simpa using hhead
        refine ⟨⟨c, (List.dropWhile_suffix _).mem hmem, hblank⟩, ?_⟩
        rw [← hshown, String.toList_ofList, htrim]

/-! ### Errors -/

/-- A position and a complaint fit the place where a source text falls in two: the position is that of
the byte where the second part begins, on the line and in the column that the first part ends with,
and the complaint is about the second part. -/
structure Points (source : String) (position : Position) (complaint : String)
    (before rest : List Char) : Prop where
  split : source.toList = before ++ rest
  size_le : (String.ofList rest).utf8ByteSize ≤ source.utf8ByteSize
  offset : position = .ofByte source (source.utf8ByteSize - (String.ofList rest).utf8ByteSize)
  line : position.line = 1 + before.count '\n'
  column : ∃ earlier current, before = earlier ++ current ∧
    (earlier = [] ∨ earlier.getLast? = some '\n') ∧ '\n' ∉ current ∧
      position.column = 1 + current.length
  complains : Complains complaint rest

theorem points_after {source : String} {before rest : List Char}
    (hsource : source.toList = before ++ rest) (expected : Option Expectation) :
    Points source (.after before) (complaint rest expected) before rest := by
  obtain ⟨hsize, hoffset⟩ := Position.ofByte_miss hsource
  obtain ⟨earlier, current, hbefore, hearlier, hcurrent, hafter⟩ :=
    Position.exists_lines_of_after before
  refine ⟨hsource, hsize, hoffset.symm, ?_, ?_, complains_complaint rest expected⟩
  · rw [hafter]
  · refine ⟨earlier, current, hbefore, hearlier, hcurrent, ?_⟩
    rw [hafter]

/-- What is read ends in a grammar error only where the reading misses, and the error points there. -/
theorem points_of_read {limit : Nat} {source : String} {position : Position} {complaint : String}
    (h : read limit source.toList = .error (.grammar position complaint)) :
    ∃ before rest expected, statement limit (limit - 1) source.toList = .miss rest expected ∧
      Points source position complaint before rest := by
  have hkeeps := keeps_statement limit (limit - 1) source.toList
  unfold read at h
  cases hread : statement limit (limit - 1) source.toList with
  | ok node rest =>
    rw [hread] at h
    cases h
  | miss rest expected =>
    rw [hread] at h hkeeps
    cases h
    obtain ⟨before, hsource⟩ := hkeeps
    refine ⟨before, rest, expected, rfl, ?_⟩
    rw [String.ofList_toList, (Position.ofByte_miss hsource.symm).2]
    exact points_after hsource.symm expected
  | halt error =>
    rw [hread] at h hkeeps
    cases h
    exact absurd rfl (hkeeps.1 position complaint)

end Grammar

open Grammar

/-- **A grammar error points into the source:** to where the text begins that the reading could make
no sense of. -/
theorem position_of_parse {source : String} {limit : Nat} {position : Position} {complaint : String}
    (h : parse source limit = .error (.grammar position complaint)) :
    ∃ before rest expected, statement limit (limit - 1) source.toList = .miss rest expected ∧
      Points source position complaint before rest := by
  apply points_of_read
  unfold parse at h
  by_cases hdepth : limit < nestingDepth source.toList
  · rw [if_pos hdepth] at h
    cases h
  · rwa [if_neg hdepth] at h

/-- A statement of another kind on the second line, behind a comment with a character of two bytes. -/
theorem position_of_parse_insertion :
    parse "-- ü\n  INSERT INTO table VALUES (1)" 3 =
        .error (.grammar ⟨2, 3⟩ "unexpected input near 'INSERT INTO table VA'") ∧
      ∃ before rest, Points "-- ü\n  INSERT INTO table VALUES (1)" ⟨2, 3⟩
        "unexpected input near 'INSERT INTO table VA'" before rest := by
  have hparse : parse "-- ü\n  INSERT INTO table VALUES (1)" 3 =
      .error (.grammar ⟨2, 3⟩ "unexpected input near 'INSERT INTO table VA'") := by cbv
  obtain ⟨before, rest, -, -, hpoints⟩ := position_of_parse hparse
  exact ⟨hparse, before, rest, hpoints⟩

end JetSql
