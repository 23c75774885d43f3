/-
Positions in a source text, and the bytes that they stand at.

A position tells how much of the text lies behind. It moves on with every character, a line break
moves it to the next line, and no two stretches that begin the text end at the same position. So a
position can be taken back to its byte: behind the lines before it, each with its line break, and as
many characters of its own line as its column says.

* `byteAt?` is the way from a position to a byte; there is none if the text has no such line or the
  line is too short.
* **`ofByte_faithful`:** positions are in the order of their bytes, `byteAt?` takes every position of
  the text back, and what lies past the end has the position of the end.
-/

import JetSql.Text.Position
import Mathlib.Data.List.Induction
import Mathlib.Data.Prod.Basic

namespace JetSql.Position

variable {source : String} {before rest first others cs : List Char} {line column offset : Nat}

/-! ### Order -/

/-- The order of positions: by lines, and on one line by columns. -/
def Precedes (p q : Position) : Prop :=
  Prod.Lex (· < ·) (· < ·) (p.line, p.column) (q.line, q.column)

theorem precedes_iff {p q : Position} :
    p.Precedes q ↔ p.line < q.line ∨ p.line = q.line ∧ p.column < q.column :=
  Prod.lex_iff

theorem Precedes.trans {p q r : Position} (hpq : p.Precedes q) (hqr : q.Precedes r) :
    p.Precedes r := by
  rw [precedes_iff] at *
  omega

/-- One character more moves the position on. -/
theorem precedes_after_char (before : List Char) (c : Char) :
    (after before).Precedes (after (before ++ [c])) := by
  rw [precedes_iff]
  by_cases hc : c = '\n'
  · subst hc
    rw [after_lineBreak]
    exact .inl (Nat.lt_succ_self _)
  · rw [after_char before hc]
    exact .inr ⟨rfl, Nat.lt_succ_self _⟩

/-- **Where more of the text lies behind, the position is a later one.** -/
theorem precedes_after (before : List Char) {more : List Char} (h : more ≠ []) :
    (after before).Precedes (after (before ++ more)) := by
  induction more using List.reverseRecOn with
  | nil => exact absurd rfl h
  | append_singleton more c ih =>
    rw [← List.append_assoc]
    by_cases hmore : more = []
    · rw [hmore, List.append_nil]
      exact precedes_after_char before c
    · exact (ih hmore).trans (precedes_after_char _ c)

/-! ### Bytes -/

theorem utf8ByteSize_cons (c : Char) (cs : List Char) :
    (String.ofList (c :: cs)).utf8ByteSize = c.utf8Size + (String.ofList cs).utf8ByteSize := by
  rw [← List.singleton_append, String.ofList_append, String.utf8ByteSize_append]
  simp

/-- As many bytes as a text has are those of the text. -/
theorem takeBytes_append (before rest : List Char) :
    takeBytes (String.ofList before).utf8ByteSize (before ++ rest) = before := by
  induction before with
  | nil =>
    cases rest with
    | nil => rfl
    | cons c rest =>
      have hsize := c.utf8Size_pos
      simp only [String.ofList_nil, String.utf8ByteSize_empty, List.nil_append, takeBytes]
      rw [if_neg (by omega)]
  | cons c before ih =>
    rw [utf8ByteSize_cons, List.cons_append, takeBytes, if_pos (Nat.le_add_right ..),
      Nat.add_sub_cancel_left, ih]

/-- More bytes than a text has are all of the text. -/
theorem takeBytes_of_le {bytes : Nat} (h : (String.ofList cs).utf8ByteSize ≤ bytes) :
    takeBytes bytes cs = cs := by
  induction cs generalizing bytes with
  | nil => rfl
  | cons c cs ih =>
    rw [utf8ByteSize_cons] at h
    rw [takeBytes, if_pos (by omega), ih (by omega)]

/-- An offset stands between characters if it is the size of a stretch that begins the text. -/
theorem isValid_iff : (⟨offset⟩ : String.Pos.Raw).IsValid source ↔
    ∃ before rest, source.toList = before ++ rest ∧ (String.ofList before).utf8ByteSize = offset := by
  rw [String.Pos.Raw.isValid_iff_exists_append]
  constructor
  · rintro ⟨before, rest, rfl, hoffset⟩
    refine ⟨before.toList, rest.toList, String.toList_append, ?_⟩
    rw [String.ofList_toList]
    exact (congrArg String.Pos.Raw.byteIdx hoffset).symm
  · rintro ⟨before, rest, hsource, rfl⟩
    refine ⟨String.ofList before, String.ofList rest, ?_, rfl⟩
    rw [← String.ofList_append, ← hsource, String.ofList_toList]

theorem ofByte_utf8ByteSize (h : source.toList = before ++ rest) :
    ofByte source (String.ofList before).utf8ByteSize = after before := by
  rw [ofByte, h, takeBytes_append]

/-- Of two stretches that begin a text, the one with more bytes goes on from the other. -/
theorem exists_append_of_utf8ByteSize_lt {longer rest' : List Char}
    (hsplit : before ++ rest = longer ++ rest')
    (hlt : (String.ofList before).utf8ByteSize < (String.ofList longer).utf8ByteSize) :
    ∃ more, more ≠ [] ∧ longer = before ++ more := by
  rcases List.append_eq_append_iff.mp hsplit with ⟨more, rfl, -⟩ | ⟨more, rfl, -⟩
  · refine ⟨more, ?_, rfl⟩
    rintro rfl
    rw [List.append_nil] at hlt
    exact absurd hlt (Nat.lt_irrefl _)
  · rw [String.ofList_append, String.utf8ByteSize_append] at hlt
    omega

/-! ### Lines -/

/-- The lines of a text, without their line breaks. -/
def lines (source : String) : List (List Char) :=
  source.toList.splitOn '\n'

/-- The byte at which a line and a column begin, both counted from zero: it is behind the lines before,
each with its line break, and behind the characters before the column. -/
def byteIn? : List (List Char) → Nat → Nat → Option Nat
  | [], _, _ => none
  | first :: _, 0, column =>
    if column ≤ first.length then some (String.ofList (first.take column)).utf8ByteSize else none
  | first :: others, line + 1, column =>
    (byteIn? others line column).map fun offset =>
      (String.ofList first).utf8ByteSize + '\n'.utf8Size + offset

/-- The byte at which a position stands. -/
def byteAt? (source : String) : Position → Option Nat
  | ⟨line + 1, column + 1⟩ => byteIn? (lines source) line column
  | _ => none

theorem after_of_not_mem (h : '\n' ∉ before) : after before = ⟨1, before.length + 1⟩ := by
  induction before using List.reverseRecOn with
  | nil => rfl
  | append_singleton before c ih =>
    rw [List.mem_append, List.mem_singleton, not_or] at h
    rw [after_char before (Ne.symm h.2), ih h.1, List.length_append, List.length_singleton]

/-- A whole line that lies behind makes a difference of one line. -/
theorem after_append_lineBreak (h : '\n' ∉ first) (before : List Char) :
    after (first ++ '\n' :: before) = ⟨(after before).line + 1, (after before).column⟩ := by
  rw [List.append_cons]
  induction before using List.reverseRecOn with
  | nil => rw [List.append_nil, after_lineBreak, after_of_not_mem h, after_nil]
  | append_singleton before c ih =>
    rw [← List.append_assoc]
    by_cases hc : c = '\n'
    · rw [hc, after_lineBreak, after_lineBreak, ih]
    · rw [after_char _ hc, after_char before hc, ih]

theorem utf8ByteSize_lineBreak (first before : List Char) :
    (String.ofList (first ++ '\n' :: before)).utf8ByteSize =
      (String.ofList first).utf8ByteSize + '\n'.utf8Size + (String.ofList before).utf8ByteSize := by
  rw [String.ofList_append, String.utf8ByteSize_append, utf8ByteSize_cons, Nat.add_assoc]

/-- A stretch that begins a text ends on its first line, or behind it. -/
theorem cases_of_lineBreak (h : first ++ '\n' :: others = before ++ rest) :
    (∃ tail, first = before ++ tail) ∨
      ∃ behind, before = first ++ '\n' :: behind ∧ others = behind ++ rest := by
  rcases List.append_eq_append_iff.mp h with ⟨more, hbefore, hrest⟩ | ⟨tail, hfirst, -⟩
  · cases more with
    | nil => exact .inl ⟨[], by rw [hbefore]; simp⟩
    | cons c behind =>
      obtain ⟨rfl, rfl⟩ := List.cons.inj hrest
      exact .inr ⟨behind, hbefore, rfl⟩
  · exact .inl ⟨tail, hfirst⟩

/-- On the first line the column counts the characters that lie behind. -/
theorem take_eq_iff (hfirst : '\n' ∉ first) :
    (column ≤ first.length ∧ (String.ofList (first.take column)).utf8ByteSize = offset) ↔
      ∃ before tail, first = before ++ tail ∧ after before = ⟨1, column + 1⟩ ∧
        (String.ofList before).utf8ByteSize = offset := by
  constructor
  · rintro ⟨hle, rfl⟩
    refine ⟨first.take column, first.drop column, (List.take_append_drop ..).symm, ?_, rfl⟩
    rw [after_of_not_mem fun hmem => hfirst (List.mem_of_mem_take hmem), List.length_take,
      Nat.min_eq_left hle]
  · rintro ⟨before, tail, rfl, hafter, rfl⟩
    rw [after_of_not_mem fun hmem => hfirst (List.mem_append_left _ hmem)] at hafter
    obtain rfl : before.length = column := by simpa using hafter
    exact ⟨by simp, by rw [List.take_left]⟩

/-- **A byte is that of a line and a column if they are where the stretch before it ends.** -/
theorem byteIn?_eq_some : byteIn? (cs.splitOn '\n') line column = some offset ↔
    ∃ before rest, cs = before ++ rest ∧ after before = ⟨line + 1, column + 1⟩ ∧
      (String.ofList before).utf8ByteSize = offset := by
  induction line generalizing cs offset with
  | zero =>
    by_cases hbreak : '\n' ∈ cs
    · obtain ⟨first, others, rfl, hfirst⟩ := List.eq_append_cons_of_mem hbreak
      rw [List.splitOn_append_cons_self_of_not_mem hfirst, byteIn?, Option.ite_none_right_eq_some,
        Option.some.injEq, take_eq_iff hfirst]
      constructor
      · rintro ⟨before, tail, rfl, hafter, hsize⟩
        exact ⟨before, _, List.append_assoc .., hafter, hsize⟩
      · rintro ⟨before, rest, hsplit, hafter, hsize⟩
        rcases cases_of_lineBreak hsplit with ⟨tail, rfl⟩ | ⟨behind, rfl, -⟩
        · exact ⟨before, tail, rfl, hafter, hsize⟩
        · rw [after_append_lineBreak hfirst] at hafter
          simp [after] at hafter
    · rw [List.splitOn_eq_singleton hbreak, byteIn?, Option.ite_none_right_eq_some,
        Option.some.injEq, take_eq_iff hbreak]
  | succ line ih =>
    by_cases hbreak : '\n' ∈ cs
    · obtain ⟨first, others, rfl, hfirst⟩ := List.eq_append_cons_of_mem hbreak
      rw [List.splitOn_append_cons_self_of_not_mem hfirst, byteIn?, Option.map_eq_some_iff]
      constructor
      · rintro ⟨offset, hoffset, rfl⟩
        obtain ⟨behind, rest, rfl, hafter, rfl⟩ := ih.mp hoffset
        refine ⟨first ++ '\n' :: behind, rest, by simp, ?_, utf8ByteSize_lineBreak first behind⟩
        rw [after_append_lineBreak hfirst, hafter]
      · rintro ⟨before, rest, hsplit, hafter, rfl⟩
        rcases cases_of_lineBreak hsplit with ⟨tail, rfl⟩ | ⟨behind, rfl, rfl⟩
        · rw [after_of_not_mem fun hmem => hfirst (List.mem_append_left _ hmem)] at hafter
          simp at hafter
        · rw [after_append_lineBreak hfirst] at hafter
          obtain ⟨hline, hcolumn⟩ := Position.mk.inj hafter
          refine ⟨_, ih.mpr ⟨behind, rest, rfl, ?_, rfl⟩, (utf8ByteSize_lineBreak first behind).symm⟩
          rw [← hcolumn, ← Nat.succ.inj hline]
    · rw [List.splitOn_eq_singleton hbreak]
      simp only [byteIn?, Option.map_none, reduceCtorEq, false_iff]
      rintro ⟨before, rest, rfl, hafter, -⟩
      rw [after_of_not_mem fun hmem => hbreak (List.mem_append_left _ hmem)] at hafter
      simp at hafter

/-! ### Positions of a text -/

/-- `byteAt?` takes back the positions of the offsets that stand between characters, and no others. -/
theorem byteAt?_eq_some {position : Position} : byteAt? source position = some offset ↔
    (⟨offset⟩ : String.Pos.Raw).IsValid source ∧ ofByte source offset = position := by
  rw [isValid_iff]
  constructor
  · intro h
    unfold byteAt? at h
    split at h
    · obtain ⟨before, rest, hsource, hafter, rfl⟩ := byteIn?_eq_some.mp h
      exact ⟨⟨before, rest, hsource, rfl⟩, by rw [ofByte_utf8ByteSize hsource, hafter]⟩
    · cases h
  · rintro ⟨⟨before, rest, hsource, rfl⟩, rfl⟩
    rw [ofByte_utf8ByteSize hsource]
    exact byteIn?_eq_some.mpr ⟨before, rest, hsource, rfl, rfl⟩

/-- Offsets that stand between characters have positions in their order. -/
theorem precedes_ofByte {offset' : Nat} (h : (⟨offset⟩ : String.Pos.Raw).IsValid source)
    (h' : (⟨offset'⟩ : String.Pos.Raw).IsValid source) (hlt : offset < offset') :
    (ofByte source offset).Precedes (ofByte source offset') := by
  obtain ⟨before, rest, hsource, rfl⟩ := isValid_iff.mp h
  obtain ⟨longer, rest', hsource', rfl⟩ := isValid_iff.mp h'
  obtain ⟨more, hmore, rfl⟩ := exists_append_of_utf8ByteSize_lt (hsource.symm.trans hsource') hlt
  rw [ofByte_utf8ByteSize hsource, ofByte_utf8ByteSize hsource']
  exact precedes_after before hmore

/-- What lies past the end has the position of the end. -/
theorem ofByte_of_le (h : source.utf8ByteSize ≤ offset) :
    ofByte source offset = ofByte source source.utf8ByteSize := by
  have hsize : (String.ofList source.toList).utf8ByteSize = source.utf8ByteSize := by
    rw [String.ofList_toList]
  rw [ofByte, ofByte, takeBytes_of_le (Nat.le_trans (Nat.le_of_eq hsize) h),
    takeBytes_of_le (Nat.le_of_eq hsize)]

/-- **Of two offsets that stand between characters, the earlier one has the earlier position; a
position belongs to the offset where its line begins and as many characters as its column says, and to
no other; and every offset past the end has the position of the end.** -/
theorem ofByte_faithful (source : String) :
    (∀ {i j : Nat}, (⟨i⟩ : String.Pos.Raw).IsValid source → (⟨j⟩ : String.Pos.Raw).IsValid source →
      i < j → (ofByte source i).Precedes (ofByte source j)) ∧
      (∀ {offset : Nat} {position : Position}, byteAt? source position = some offset ↔
        (⟨offset⟩ : String.Pos.Raw).IsValid source ∧ ofByte source offset = position) ∧
      ∀ {offset : Nat}, source.utf8ByteSize ≤ offset →
        ofByte source offset = ofByte source source.utf8ByteSize :=
  ⟨precedes_ofByte, byteAt?_eq_some, ofByte_of_le⟩

/-- Two characters of three bytes on the first line, so that the second line begins at the byte three,
and its second column at the byte four. -/
theorem ofByte_faithful_umlaut :
    (⟨3⟩ : String.Pos.Raw).IsValid "ü\nab" ∧ (⟨4⟩ : String.Pos.Raw).IsValid "ü\nab" ∧
      (ofByte "ü\nab" 3).Precedes (ofByte "ü\nab" 4) ∧ byteAt? "ü\nab" ⟨2, 2⟩ = some 4 ∧
      ofByte "ü\nab" 4 = ⟨2, 2⟩ ∧ ofByte "ü\nab" 9 = ofByte "ü\nab" 5 := by
  obtain ⟨hordered, hback, hpast⟩ := ofByte_faithful "ü\nab"
  have hthree : (⟨3⟩ : String.Pos.Raw).IsValid "ü\nab" :=
    isValid_iff.mpr ⟨['ü', '\n'], ['a', 'b'], rfl, rfl⟩
  have hback' : byteAt? "ü\nab" ⟨2, 2⟩ = some 4 := rfl
  obtain ⟨hfour, hposition⟩ := hback.mp hback'
  exact ⟨hthree, hfour, hordered hthree hfour (by decide), hback', hposition, hpast (by decide)⟩

end JetSql.Position
