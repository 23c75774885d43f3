/-
Names and literals as the targets write them.

Names that were bracketed and strings may hold any character, but their quotes stand in pairs. What
is needed beyond that is that bare names are words and numbers are digits: `Node.Spelled` says so of
the trees, and `Renderer.CallsNames` of the renames.

* **`callsNames_ofDialect`:** the renames of the dialects are such.
-/

import JetSql.Proofs.Dictionary
import JetSql.Proofs.Grammar.Source
import JetSql.Proofs.Renderer.Success
import JetSql.Proofs.Target.Spelling

namespace JetSql

/-- A bare part of a name is a word. -/
def Part.Spelled (part : Part) : Prop :=
  part.bracketed = false → Text.isWord part.name.toList = true

theorem Part.Formed.spelled {part : Part} (h : part.Formed) : part.Spelled := by
  obtain ⟨name, _ | _⟩ := part
  · exact fun _ => h.1
  · exact nofun

/-- The names and literals of a node can be told from what surrounds them. -/
def Node.Spelled : Node → Prop
  | selectItem _ asName | tableRef _ asName => ∀ part ∈ asName, part.Spelled
  | identifier parts | qualifiedStar parts => parts ≠ [] ∧ ∀ part ∈ parts, part.Spelled
  | literal value => value.Formed
  | call callee _ => Text.isWord callee.toList = true
  | _ => True

/-- Every function has a target name of words with points between them. -/
def Renderer.CallsNames (renderer : Renderer) : Prop :=
  ∀ entry ∈ renderer.renames.entries,
    entry.2.toList ≠ [] ∧ entry.2.toList.all Target.isTokenChar = true

namespace Target

open Node Renderer Text

variable {renderer : Renderer} {c : Char} {text : String}

/-! ### Words and digits -/

theorem isBare_of_isTokenChar (h : isTokenChar c = true) : isBare c = true := by
  rw [isBare, Bool.not_eq_true', ← Bool.not_eq_true]
  intro hc
  simp only [isQuote, Bool.or_eq_true, beq_iff_eq] at hc
  rcases hc with (((rfl | rfl) | rfl) | rfl) | rfl <;> exact absurd h (by decide)

theorem isTokenChar_of_isWord {text : List Char} (h : isWord text = true) :
    text ≠ [] ∧ text.all isTokenChar = true := by
  obtain ⟨c, rest, rfl, hc, hrest⟩ := exists_of_isWord h
  refine ⟨List.cons_ne_nil c rest, ?_⟩
  rw [List.all_cons, isTokenChar, isWordChar_of_isWordStart hc, Bool.true_or, Bool.true_and]
  exact List.all_eq_true.mpr fun d hd => by
    rw [isTokenChar, List.all_eq_true.mp hrest d hd, Bool.true_or]

theorem isTokenChar_of_isDigit (h : c.isDigit = true) : isTokenChar c = true := by
  have hascii : c.toNat < 0x80 := by
    simp only [Char.isDigit, ge_iff_le, Bool.and_eq_true, decide_eq_true_eq,
      UInt32.le_iff_toNat_le] at h
    exact Nat.lt_of_le_of_lt h.2 (by decide)
  simp [isTokenChar, isWordChar, isNumeric, hascii, h]

theorem isTokenChar_of_isNumber {text : List Char} (h : IsNumber text) :
    text ≠ [] ∧ text.all isTokenChar = true := by
  have hdigits {digits : List Char} (h : digits.all Char.isDigit = true) :
      digits.all isTokenChar = true :=
    List.all_eq_true.mpr fun c hc => isTokenChar_of_isDigit (List.all_eq_true.mp h c hc)
  cases h with
  | whole hne h => exact ⟨hne, hdigits h⟩
  | fraction hne h _ h' =>
    refine ⟨by simp, ?_⟩
    rw [List.all_append, List.all_cons, hdigits h, hdigits h']
    rfl

theorem isDigit_toString (n : Nat) : (toString n).toList.all Char.isDigit = true := by
  rw [Nat.toString_eq_repr, Nat.repr, String.toList_ofList]
  exact List.all_eq_true.mpr fun c hc => Nat.isDigit_of_mem_toDigits (by decide) (by decide) hc

/-! ### Names -/

/-- The target name of a function is made of words. -/
theorem isTokenChar_targetName (hcalls : renderer.CallsNames) {callee : String}
    (h : isWord callee.toList = true) : (renderer.targetName callee).toList ≠ [] ∧
      (renderer.targetName callee).toList.all isTokenChar = true := by
  rw [targetName]
  cases hget : renderer.renames.get? callee.toUpper with
  | none => exact isTokenChar_of_isWord h
  | some target => exact hcalls _ (Dictionary.mem_of_lookupEntry hget)

/-- Every function has a target name that is made of words, or is empty. -/
def CallsWords (renderer : Renderer) : Prop :=
  ∀ entry ∈ renderer.renames.entries, entry.2.toList.all isTokenChar = true

theorem callsWords_of_callsNames (hcalls : renderer.CallsNames) : CallsWords renderer :=
  fun entry hentry => (hcalls entry hentry).2

theorem isTokenChar_of_callsWords (hcalls : CallsWords renderer) {callee : String}
    (h : isWord callee.toList = true) :
    (renderer.targetName callee).toList.all isTokenChar = true := by
  rw [targetName]
  cases hget : renderer.renames.get? callee.toUpper with
  | none => exact (isTokenChar_of_isWord h).2
  | some target => exact hcalls _ (Dictionary.mem_of_lookupEntry hget)

/-- One more rename to a word leaves all names made of words. -/
theorem callsWords_rename (hcalls : CallsWords renderer) (source : String) {target : String}
    (htarget : target.toList.all isTokenChar = true) : CallsWords (renderer.rename source target) :=
  Dictionary.forall_mem_insertEntry htarget hcalls

/-- **The renames of every dialect are to words.** -/
theorem callsNames_ofDialect (dialect : Dialect) : (ofDialect dialect).CallsNames := by
  refine Dictionary.forall_mem_ofList ?_
  cases dialect <;> decide

/-! ### Literals -/

/-- A text without single quotes. -/
def Unquoted (text : String) : Prop :=
  text.toList.all (fun c => c != '\'') = true

theorem Unquoted.append {first second : String} (hfirst : Unquoted first)
    (hsecond : Unquoted second) :
    Unquoted (first ++ second) := by
  rw [Unquoted, String.toList_append, List.all_append, hfirst, hsecond]
  rfl

theorem paired_of_all {delimiter : Char} {text : List Char}
    (h : text.all (fun c => c != delimiter) = true) : paired delimiter text = true := by
  induction text with
  | nil => rfl
  | cons c text ih =>
    rw [List.all_cons, Bool.and_eq_true, bne_iff_ne] at h
    rw [paired_cons h.1, ih h.2]

theorem paired_stringBody {value : String} {quote : Char}
    (h : (Literal.string value quote).Formed) : paired '\'' (stringBody value quote) = true := by
  rw [stringBody]
  split
  · exact paired_double _
  · rename_i hquote
    obtain rfl := h.1.resolve_right hquote
    exact h.2

theorem unquoted_zeroPadded (width n : Nat) : Unquoted (zeroPadded width n) := by
  refine Unquoted.append ?_ (List.all_eq_true.mpr fun c hc => bne_iff_ne.mpr ?_)
  · rw [Unquoted, String.toList_ofList, List.all_replicate]
    split <;> rfl
  · rintro rfl
    exact absurd (List.all_eq_true.mp (isDigit_toString n) _ hc) (by decide)

theorem unquoted_iso (moment : Moment) : Unquoted moment.iso := by
  have hyear (year : Int) : Unquoted (Date.yearText year) := by
    rw [Date.yearText]
    split
    · exact unquoted_zeroPadded 4 _
    · refine Unquoted.append ?_ (unquoted_zeroPadded 4 _)
      split <;> rfl
  have hdash : Unquoted "-" := rfl
  have hcolon : Unquoted ":" := rfl
  have hblank : Unquoted " " := rfl
  have hdate (date : Date) : Unquoted date.iso :=
    ((((hyear date.year).append hdash).append (unquoted_zeroPadded 2 _)).append hdash).append
      (unquoted_zeroPadded 2 _)
  have hclock (clock : TimeOfDay) : Unquoted clock.iso :=
    ((((unquoted_zeroPadded 2 _).append hcolon).append (unquoted_zeroPadded 2 _)).append
      hcolon).append (unquoted_zeroPadded 2 _)
  cases moment with
  | day date => exact hdate date
  | timestamp date clock => exact ((hdate date).append hblank).append (hclock clock)

/-! ### Patterns -/

theorem pairedFrom_exactly (c : Char) (half : Bool) (s : List Char) :
    pairedFrom '\'' half (Pattern.writeElement (.exactly c) ++ s) = pairedFrom '\'' half (c :: s) := by
  rw [Pattern.writeElement]
  split
  · rename_i hspecial
    have hquote : c ≠ '\'' := by
      rintro rfl
      cases hspecial
    rw [List.cons_append, List.singleton_append, pairedFrom_cons (by decide), pairedFrom_cons hquote,
      pairedFrom_cons hquote]
    rfl
  · rfl

/-- Escaping the characters of a pattern leaves its quotes in pairs. -/
theorem pairedFrom_write {body : List Char} {pattern : Pattern} {half : Bool}
    (h : Pattern.read body = .ok pattern) (hbody : pairedFrom '\'' half body = true) :
    pairedFrom '\'' half (pattern.flatMap Pattern.writeElement) = true := by
  fun_induction Pattern.read body generalizing half pattern with
  | case1 =>
    cases h
    exact hbody
  | case2 rest ih | case3 rest ih =>
    simp only [bind_eq_ok, pure_eq_ok] at h
    obtain ⟨more, hmore, rfl⟩ := h
    rw [pairedFrom_cons (by decide), Bool.and_eq_true] at hbody
    rw [List.flatMap_cons, Pattern.writeElement, List.singleton_append, pairedFrom_cons (by decide),
      hbody.1, ih hmore hbody.2]
    rfl
  | case4 | case5 | case7 => cases h
  | case6 c rest hc ih =>
    simp only [bind_eq_ok, pure_eq_ok] at h
    obtain ⟨more, hmore, rfl⟩ := h
    rw [pairedFrom_cons (by decide), Bool.and_eq_true] at hbody
    have hquote : c ≠ '\'' := by
      rintro rfl
      cases hbody.2
    have hrest := hbody.2
    rw [pairedFrom_cons hquote, pairedFrom_cons (by decide)] at hrest
    rw [List.flatMap_cons, pairedFrom_exactly, pairedFrom_cons hquote, hbody.1, ih hmore hrest]
    rfl
  | case8 c rest _ _ _ _ _ ih =>
    simp only [bind_eq_ok, pure_eq_ok] at h
    obtain ⟨more, hmore, rfl⟩ := h
    rw [List.flatMap_cons, pairedFrom_exactly]
    cases half with
    | false => exact ih hmore hbody
    | true =>
      obtain ⟨hquote, hrest⟩ := Bool.and_eq_true_iff.mp hbody
      exact Bool.and_eq_true_iff.mpr ⟨hquote, ih hmore hrest⟩

/-! ### Names and numbers as operands -/

theorem passes_partText {part : Part} (h : part.Spelled) :
    Passes renderer.dialect.nameQuote (renderer.partText part).toList := by
  obtain ⟨name, _ | _⟩ := part
  · exact passes_of_all (isQuote_nameQuote _) (isTokenChar_of_isWord (h rfl)).2
  · rw [partText, if_pos rfl, Dialect.quoteName, String.toList_ofList]
    exact passes_enclose _

theorem exists_cons_partText (renderer : Renderer) {part : Part} (h : part.Spelled) :
    ∃ c rest, (renderer.partText part).toList = c :: rest ∧ c ≠ '(' := by
  obtain ⟨name, _ | _⟩ := part
  · obtain ⟨c, rest, hname, hc, -⟩ := exists_of_isWord (h rfl)
    refine ⟨c, rest, hname, ?_⟩
    rintro rfl
    exact absurd hc (by decide)
  · refine ⟨renderer.dialect.nameQuote, double renderer.dialect.nameQuote name.toList ++
      [renderer.dialect.nameQuote], ?_, ?_⟩
    · rw [partText, if_pos rfl, Dialect.quoteName, String.toList_ofList, enclose]
    · cases renderer.dialect <;> decide

/-- A dotted name is one operand. -/
theorem atomic_partsText (renderer : Renderer) {parts : List Part} (hne : parts ≠ [])
    (h : ∀ part ∈ parts, part.Spelled) :
    Atomic renderer.dialect.nameQuote (renderer.partsText parts).toList
      (.token (renderer.partsText parts).toList) := by
  have hquote := isQuote_nameQuote renderer.dialect
  obtain ⟨part, parts, rfl⟩ := List.exists_cons_of_ne_nil hne
  obtain ⟨hpart, hparts⟩ := List.forall_mem_cons.mp h
  have hpasses : Passes renderer.dialect.nameQuote (renderer.partsText (part :: parts)).toList := by
    rw [partsText, String.toList_intercalate]
    refine passes_intercalate hquote ?_
    simp only [List.mem_map]
    rintro _ ⟨_, ⟨part, hpart, rfl⟩, rfl⟩
    exact passes_partText (h part hpart)
  obtain ⟨c, rest, htext, hc⟩ := exists_cons_partText renderer hpart
  have hcons : (renderer.partsText (part :: parts)).toList =
      c :: (rest ++ parts.flatMap fun part => ['.'] ++ (renderer.partText part).toList) := by
    have := intercalate_map_cons ['.'] (fun part => (renderer.partText part).toList) part parts
    rw [partsText, String.toList_intercalate, List.map_map]
    rw [htext] at this
    exact this
  refine atomic_token hquote hpasses ?_ ?_
  · rw [hcons]
    exact List.cons_ne_nil _ _
  · rw [hcons]
    simpa using hc

theorem atomic_number {text : List Char} (h : IsNumber text) (dialect : Dialect) :
    Atomic dialect.nameQuote text (.token text) := by
  obtain ⟨hne, htext⟩ := isTokenChar_of_isNumber h
  have hquote := isQuote_nameQuote dialect
  refine atomic_token hquote (passes_of_all hquote htext) hne ?_
  intro hhead
  obtain ⟨rest, rfl⟩ := List.head?_eq_some_iff.mp hhead
  cases htext

end Target

end JetSql
