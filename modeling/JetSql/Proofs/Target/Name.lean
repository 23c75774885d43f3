/-
Names as the targets read them.

A name of a target is made of parts with dots between them. A part that begins with the quote of the
dialect goes on to the quote that closes it; a pair of quotes inside denotes one, and dots mean
nothing there. Any other part goes on to the next dot.

* **`readName?_partsText`:** from the text of a name the target reads the parts of the name again,
  and of each whether it was in brackets.
* **`readName?_of_identifier`:** so identifiers of different parts never have the same text, whatever
  dots and quotes there are in them.
-/

import JetSql.Proofs.Target.Leaf

namespace JetSql

namespace Target

open Renderer Text

/-! ### The reader -/

/-- The part of a name that a text begins with, and what follows it. -/
def readPart? (quote : Char) : List Char → Option (Part × List Char)
  | [] => none
  | c :: s =>
    if c = quote then
      match splitBody quote s with
      | (_, []) => none
      | (body, _ :: rest) => some (⟨String.ofList (undouble quote body), true⟩, rest)
    else if c = '.' then none
    else some (⟨String.ofList (c :: s.takeWhile (· != '.')), false⟩, s.dropWhile (· != '.'))

/-- Reading a part leaves less text. -/
theorem length_lt_of_readPart? {quote : Char} {s rest : List Char} {part : Part}
    (h : readPart? quote s = some (part, rest)) : rest.length < s.length := by
  fun_cases readPart? quote s with
  | case1 => cases h
  | case2 s body hsplit => simp [readPart?, hsplit] at h
  | case3 s body c after hsplit =>
    simp only [readPart?, hsplit, if_true, Option.some.injEq, Prod.mk.injEq] at h
    obtain ⟨-, rfl⟩ := h
    have hlength := congrArg List.length (splitBody_append quote s)
    simp only [hsplit, List.length_append, List.length_cons] at hlength ⊢
    omega
  | case4 s hquote => simp [readPart?, hquote] at h
  | case5 c s hquote hdot =>
    simp only [readPart?, if_neg hquote, if_neg hdot, Option.some.injEq, Prod.mk.injEq] at h
    obtain ⟨-, rfl⟩ := h
    have hlength := (List.dropWhile_suffix (· != '.') (l := s)).length_le
    simp only [List.length_cons]
    omega

/-- The parts of a text that is one name and nothing else. -/
def readName? (quote : Char) (s : List Char) : Option (List Part) :=
  match _hpart : readPart? quote s with
  | some (part, []) => some [part]
  | some (part, '.' :: rest) => (readName? quote rest).map (part :: ·)
  | _ => none
termination_by s.length
decreasing_by
  have := length_lt_of_readPart? _hpart
  simp only [List.length_cons] at this
  omega

variable {quote : Char} {part : Part} {parts : List Part} {s rest : List Char}

theorem readName?_last (h : readPart? quote s = some (part, [])) :
    readName? quote s = some [part] := by
  rw [readName?]
  split <;> simp_all

theorem readName?_dot (h : readPart? quote s = some (part, '.' :: rest)) :
    readName? quote s = (readName? quote rest).map (part :: ·) := by
  rw [readName?]
  split <;> simp_all

/-! ### What is read back -/

/-- A text that a part of a name does not run on into: it ends here, or a dot follows. -/
def EndsPart (rest : List Char) : Prop :=
  rest = [] ∨ rest.head? = some '.'

theorem EndsPart.head?_ne (h : EndsPart rest) (hquote : isQuote quote = true) :
    rest.head? ≠ some quote := by
  rcases h with rfl | h
  · simp
  · rw [h]
    rintro ⟨⟩
    cases hquote

/-- A word ends at the next dot, since it has none itself. -/
theorem readPart?_word {name : String} (hquote : isQuote quote = true) (h : isWord name.toList = true)
    (hrest : EndsPart rest) : readPart? quote (name.toList ++ rest) = some (⟨name, false⟩, rest) := by
  obtain ⟨c, cs, hname, hc, hcs⟩ := exists_of_isWord h
  have hchar : isTokenChar c = true := by
    have := (isTokenChar_of_isWord h).2
    rw [hname, List.all_cons, Bool.and_eq_true] at this
    exact this.1
  have hdot {d : Char} (hd : isWordChar d = true) : d ≠ '.' := by
    rintro rfl
    exact absurd hd (by decide)
  have hplain : cs.all (· != '.') = true :=
    List.all_eq_true.mpr fun d hd => bne_iff_ne.mpr (hdot (List.all_eq_true.mp hcs d hd))
  have hstop : rest.head?.any (· != '.') = false := by
    rcases hrest with rfl | hrest
    · rfl
    · rw [hrest]
      rfl
  obtain ⟨htake, hdrop⟩ :=
    Grammar.Reader.takeWhile_eq_and_dropWhile_eq_iff.mpr ⟨rfl, hplain, hstop⟩
  rw [hname, List.cons_append, readPart?, if_neg (ne_of_isTokenChar hquote hchar),
    if_neg (hdot (isWordChar_of_isWordStart hc)), htake, hdrop, ← hname, String.ofList_toList]

/-- A quoted name ends at the quote that closes it, whatever stands in it. -/
theorem readPart?_enclose {name : String} (hrest : rest.head? ≠ some quote) :
    readPart? quote (enclose quote name.toList ++ rest) = some (⟨name, true⟩, rest) := by
  have hpaired : paired quote (double quote name.toList) = true := paired_double name.toList
  have hsplit := splitBody_of_paired hpaired hrest
  rw [enclose, List.cons_append, List.append_assoc, List.singleton_append, readPart?, if_pos rfl,
    hsplit]
  simp only [undouble_double, String.ofList_toList]

theorem readPart?_partText (renderer : Renderer) (h : part.Spelled) (hrest : EndsPart rest) :
    readPart? renderer.dialect.nameQuote ((renderer.partText part).toList ++ rest) =
      some (part, rest) := by
  have hquote := isQuote_nameQuote renderer.dialect
  obtain ⟨name, _ | _⟩ := part
  · exact readPart?_word hquote (h rfl) hrest
  · rw [partText, if_pos rfl, Dialect.quoteName, String.toList_ofList]
    exact readPart?_enclose (hrest.head?_ne hquote)

/-- **From the text of a name its parts are read again.** -/
theorem readName?_partsText (renderer : Renderer) (hne : parts ≠ [])
    (h : ∀ part ∈ parts, part.Spelled) :
    readName? renderer.dialect.nameQuote (renderer.partsText parts).toList = some parts := by
  rw [partsText, String.toList_intercalate, List.map_map]
  induction parts with
  | nil => exact absurd rfl hne
  | cons part parts ih =>
    obtain ⟨hpart, hparts⟩ := List.forall_mem_cons.mp h
    cases parts with
    | nil =>
      have hread := readPart?_partText renderer hpart (.inl rfl)
      rw [List.append_nil] at hread
      exact readName?_last (by simpa using hread)
    | cons next parts =>
      have hrest := ih (List.cons_ne_nil next parts) hparts
      rw [List.map_cons] at hrest
      rw [List.map_cons, List.map_cons, List.intercalate_cons_cons, List.append_assoc]
      exact (readName?_dot (readPart?_partText renderer hpart (.inr rfl))).trans
        (congrArg (Option.map (part :: ·)) hrest)

end Target

variable {renderer : Renderer} {levels levels' : Nat} {parts : List Part}

/-- **Names are read back.** The target reads from the text of an identifier its parts, each as it
was, with brackets or without; so no other identifier has that text. -/
theorem readName?_of_identifier (hne : parts ≠ []) (h : ∀ part ∈ parts, part.Spelled) :
    ∃ text, renderer.renderAt (levels + 1) (.identifier parts) = .ok text ∧
      Target.readName? renderer.dialect.nameQuote text.toList = some parts ∧
      ∀ others : List Part, others ≠ [] → (∀ part ∈ others, part.Spelled) →
        renderer.renderAt (levels' + 1) (.identifier others) = .ok text → others = parts := by
  have hread := Target.readName?_partsText renderer hne h
  refine ⟨renderer.partsText parts, rfl, hread, ?_⟩
  intro others hothers hspelled hsame
  have hothersRead := Target.readName?_partsText renderer hothers hspelled
  rw [Except.ok.inj hsame, hread] at hothersRead
  exact (Option.some.inj hothersRead).symm

/-- A name that looks like two names and a quote. -/
def oddName : List Part :=
  [⟨"a.b\"", true⟩, ⟨"c", false⟩]

/-- The dot in the brackets does not part the name, and the quote there does not end it. -/
theorem readName?_of_identifier_dotted :
    oddName ≠ [] ∧ (∀ part ∈ oddName, part.Spelled) ∧
      (Renderer.ofDialect .postgres).renderAt 1 (.identifier oddName) = .ok "\"a.b\"\"\".c" ∧
      Target.readName? '"' "\"a.b\"\"\".c".toList = some oddName ∧
      ∀ others : List Part, others ≠ [] → (∀ part ∈ others, part.Spelled) →
        (Renderer.ofDialect .postgres).renderAt 1 (.identifier others) = .ok "\"a.b\"\"\".c" →
          others = oddName := by
  have hspelled : ∀ part ∈ oddName, part.Spelled :=
    List.forall_mem_cons.mpr ⟨nofun, List.forall_mem_singleton.mpr fun _ => by decide⟩
  have htext : (Renderer.ofDialect .postgres).renderAt 1 (.identifier oddName) =
      .ok "\"a.b\"\"\".c" := by decide
  obtain ⟨text, hrendered, hread, hothers⟩ :=
    @readName?_of_identifier (.ofDialect .postgres) 0 0 _ (List.cons_ne_nil _ _) hspelled
  obtain rfl := Except.ok.inj (htext.symm.trans hrendered)
  exact ⟨List.cons_ne_nil _ _, hspelled, htext, hread, hothers⟩

end JetSql
