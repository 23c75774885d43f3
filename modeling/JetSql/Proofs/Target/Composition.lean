/-
How the text of a tree is put together.

Every template of the dialects sets marks between the texts of the nodes below, or puts one in
parentheses, or a minus sign before it. `Composed` says this of a text, and with it which quoted texts
are in it and whether two minus signs meet outside of them. What a reader makes of a text is then
told by one induction over `Composed` for each reader, and none of them looks at the templates.

* **`composed_partsText`, `composed_literalText`, `composed_patternText`:** a name, a literal or a
  pattern is composed of the quotation that it is.
-/

import JetSql.Proofs.Target.Sign

namespace JetSql.Target

open Node Renderer Text

/-- What may stand between two texts: characters that are skipped, or a sign between blanks. -/
def Parting (mark : List Char) : Prop :=
  isMark mark = true ∨ ∃ c, isBare c = true ∧ mark = [' ', c, ' ']

/-- A text that is put together so that no quote meets another: the quoted texts in it, and whether
two minus signs stand side by side outside of them. -/
inductive Composed (dialect : Dialect) : List Char → List Quotation → Bool → Prop where
  | plain {text : List Char} : text.all isSkipped = true → Composed dialect text [] false
  | quoted {quote : Char} {body : List Char} :
      opensQuote dialect quote = true → paired quote body = true →
        Composed dialect (quote :: (body ++ [quote])) [⟨quote, undouble quote body⟩] false
  | parens {text : List Char} {found : List Quotation} {meets : Bool} :
      Composed dialect text found meets → Composed dialect ('(' :: (text ++ [')'])) found meets
  | minus {text : List Char} {found : List Quotation} {meets signed : Bool} :
      Composed dialect text found meets → Begins text signed →
        Composed dialect ('-' :: text) found (signed || meets)
  | between {first mark second : List Char} {found found' : List Quotation} {meets meets' : Bool} :
      Composed dialect first found meets → Parting mark → Composed dialect second found' meets' →
        Composed dialect (first ++ (mark ++ second)) (found ++ found') (meets || meets')

variable {dialect : Dialect} {renderer : Renderer} {visit : Node → Except Error String}
  {node : Node} {nodes : List Node} {left right keyword text : String} {found found' : List Quotation}
  {meets meets' : Bool}

/-! ### Marks -/

theorem parting_of_isMark {mark : List Char} (h : isMark mark = true) : Parting mark :=
  .inl h

theorem isMark_append {mark text : List Char} (hmark : isMark mark = true)
    (h : text.all isSkipped = true) : isMark (mark ++ text) = true := by
  rw [isMark, Bool.and_eq_true] at hmark
  cases mark with
  | nil => cases hmark.2
  | cons c mark => rw [isMark, List.all_append, hmark.1, h]; rfl

theorem isSkipped_of_isTokenChar {c : Char} (h : isTokenChar c = true) : isSkipped c = true := by
  have hminus : c ≠ '-' := by
    rintro rfl
    exact absurd h (by decide)
  have hslash : c ≠ '/' := by
    rintro rfl
    exact absurd h (by decide)
  simp [isSkipped, isBare_of_isTokenChar h, hminus, hslash]

theorem all_isSkipped_of_isTokenChar {text : List Char} (h : text.all isTokenChar = true) :
    text.all isSkipped = true :=
  List.all_eq_true.mpr fun c hc => isSkipped_of_isTokenChar (List.all_eq_true.mp h c hc)

/-- A mark after a text. -/
theorem Composed.append_mark {text mark : List Char} (h : Composed dialect text found meets)
    (hmark : isMark mark = true) : Composed dialect (text ++ mark) found meets := by
  simpa using h.between (parting_of_isMark hmark) (.plain (rfl : [].all isSkipped = true))

/-- Characters that are skipped, before a text. -/
theorem Composed.after_plain {text plain : List Char} (h : Composed dialect text found meets)
    (hplain : plain.all isSkipped = true) : Composed dialect (plain ++ text) found meets := by
  cases plain with
  | nil => exact h
  | cons c plain =>
    have hmark : isMark (c :: plain) = true := by rw [isMark, hplain]; rfl
    simpa using Composed.between (.plain (rfl : [].all isSkipped = true)) (parting_of_isMark hmark) h

/-- Several texts with a mark between them. -/
theorem composed_intercalate {α : Type} {mark : List Char} {texts : List (List Char)} {xs : List α}
    {found : α → List Quotation} {meets : α → Bool} (hmark : Parting mark)
    (h : List.Forall₂ (fun text x => Composed dialect text (found x) (meets x)) texts xs) :
    Composed dialect (mark.intercalate texts) (xs.flatMap found) (xs.any meets) := by
  induction h with
  | nil => exact .plain rfl
  | cons htext htexts ih =>
    cases htexts with
    | nil => simpa using htext
    | cons _ _ =>
      rw [List.intercalate_cons_cons, List.append_assoc]
      exact htext.between hmark ih

/-! ### Names -/

theorem composed_partText {part : Part} (h : part.Spelled) :
    Composed renderer.dialect (renderer.partText part).toList (part.quotations renderer.dialect)
      false := by
  obtain ⟨name, _ | _⟩ := part
  · exact .plain (all_isSkipped_of_isTokenChar (isTokenChar_of_isWord (h rfl)).2)
  · have hopens : opensQuote renderer.dialect renderer.dialect.nameQuote = true := by
      simp [opensQuote]
    have hquoted := Composed.quoted hopens (paired_double name.toList)
    rw [undouble_double] at hquoted
    rw [partText, if_pos rfl, Dialect.quoteName, String.toList_ofList]
    exact hquoted

theorem composed_partsText {parts : List Part} (h : ∀ part ∈ parts, part.Spelled) :
    Composed renderer.dialect (renderer.partsText parts).toList
      (parts.flatMap (Part.quotations renderer.dialect)) false := by
  have hparts : List.Forall₂
      (fun text part => Composed renderer.dialect text (part.quotations renderer.dialect) false)
      ((parts.map renderer.partText).map String.toList) parts := by
    rw [List.map_map, List.forall₂_map_left_iff, List.forall₂_same]
    exact fun part hpart => composed_partText (h part hpart)
  have hnone : (parts.any fun _ => false) = false :=
    List.any_eq_false.mpr fun _ _ => Bool.false_ne_true
  rw [partsText, String.toList_intercalate, ← hnone]
  exact composed_intercalate (.inl rfl) hparts

/-- A text with an alias. -/
theorem composed_aliased {asName : Option Part} (h : Composed renderer.dialect text.toList found meets)
    (hname : ∀ part ∈ asName, part.Spelled) :
    Composed renderer.dialect (text ++ renderer.aliasText asName).toList
      (found ++ asName.toList.flatMap (Part.quotations renderer.dialect)) meets := by
  cases asName with
  | none => simpa [aliasText] using h
  | some part =>
    have hword : Parting " AS ".toList := .inl rfl
    simpa [aliasText] using h.between hword (composed_partText (hname part rfl))

/-! ### Literals -/

/-- A text between single quotes. -/
theorem composed_singleQuoted (dialect : Dialect) (h : paired '\'' text.toList = true) :
    Composed dialect ("'" ++ text ++ "'").toList [⟨'\'', undouble '\'' text.toList⟩] false := by
  rw [String.toList_append, String.toList_append]
  exact .quoted rfl h

theorem composed_emptyText : Composed dialect "''".toList [⟨'\'', []⟩] false :=
  .quoted rfl (rfl : paired '\'' [] = true)

theorem undouble_of_all {delimiter : Char} {text : List Char}
    (h : text.all (fun c => c != delimiter) = true) : undouble delimiter text = text := by
  fun_induction undouble delimiter text with
  | case1 | case2 => rfl
  | case3 c d rest hc => simp [hc.1] at h
  | case4 c d rest hc ih =>
    rw [List.all_cons, Bool.and_eq_true] at h
    rw [ih h.2]

/-- A text without quotes of its own, with a word before it. -/
theorem composed_labelled (label : String) {opening : String}
    (hlabel : label.toList.all isSkipped = true) (hopening : opening = label ++ "'")
    (h : Unquoted text) :
    Composed dialect (opening ++ text ++ "'").toList [⟨'\'', text.toList⟩] false := by
  have hquoted := composed_singleQuoted dialect (paired_of_all h)
  rw [undouble_of_all h] at hquoted
  rw [hopening, String.append_assoc, String.append_assoc, String.toList_append,
    ← String.append_assoc]
  exact hquoted.after_plain hlabel

theorem composed_momentText (moment : Moment) :
    Composed renderer.dialect (renderer.momentText moment).toList [⟨'\'', moment.iso.toList⟩]
      false := by
  have hiso := unquoted_iso moment
  obtain ⟨dialect, renames, maxDepth⟩ := renderer
  cases moment with
  | day date =>
    cases dialect with
    | sqlite => exact composed_labelled "" rfl rfl hiso
    | postgres | mysql => exact composed_labelled "DATE " (by decide) rfl hiso
  | timestamp date clock =>
    cases dialect with
    | sqlite => exact composed_labelled "" rfl rfl hiso
    | postgres | mysql => exact composed_labelled "TIMESTAMP " (by decide) rfl hiso

/-- The inside of a string means in the target what it means in the source. -/
theorem undouble_stringBody {value : String} {quote : Char}
    (h : (Literal.string value quote).Formed) :
    undouble '\'' (stringBody value quote) = undouble quote value.toList := by
  rw [stringBody]
  split
  · rename_i hquote
    rw [undouble_double, hquote]
  · rename_i hquote
    rw [h.1.resolve_right hquote]

theorem composed_literalText {value : Literal} (hvalue : value.Formed)
    (h : renderer.literalText value = .ok text) :
    Composed renderer.dialect text.toList value.quotations false := by
  cases value with
  | string value quote =>
    obtain rfl := Except.ok.inj h
    have hpaired : paired '\'' (String.ofList (stringBody value quote)).toList = true := by
      rw [String.toList_ofList]
      exact paired_stringBody hvalue
    have hquoted := composed_singleQuoted renderer.dialect hpaired
    rwa [String.toList_ofList, undouble_stringBody hvalue] at hquoted
  | number value =>
    obtain rfl := Except.ok.inj h
    exact .plain (all_isSkipped_of_isTokenChar (isTokenChar_of_isNumber hvalue).2)
  | bool value =>
    obtain rfl := Except.ok.inj h
    cases renderer.dialect <;> cases value <;> exact .plain (by decide)
  | null =>
    obtain rfl := Except.ok.inj h
    exact .plain (by decide)
  | date value =>
    simp only [literalText, bind_eq_ok, pure_eq_ok] at h
    obtain ⟨moment, hmoment, rfl⟩ := h
    rw [Literal.quotations, hmoment]
    exact composed_momentText moment

theorem composed_patternText {value : String} {quote : Char}
    (hvalue : (Literal.string value quote).Formed) (h : patternText value quote = .ok text) :
    Composed dialect text.toList (Node.literal (.string value quote)).patternQuotations false := by
  rw [patternText] at h
  split at h
  · rename_i pattern hpattern
    obtain rfl := Except.ok.inj h
    have hpaired :
        paired '\'' (String.ofList (pattern.flatMap Pattern.writeElement)).toList = true := by
      rw [String.toList_ofList, ← pairedFrom_false]
      exact pairedFrom_write hpattern (pairedFrom_false _ ▸ paired_stringBody hvalue)
    have hwritten := composed_singleQuoted dialect hpaired
    rw [String.toList_ofList] at hwritten
    have hword : Parting " ESCAPE ".toList := .inl rfl
    have hescape : Composed dialect "'!'".toList [⟨'\'', [Pattern.escape]⟩] false :=
      .quoted rfl (rfl : paired '\'' ['!'] = true)
    simp only [Pattern.write, patternQuotations, hpattern]
    split
    · have hclause : (" ESCAPE '" ++ String.singleton Pattern.escape ++ "'").toList =
          " ESCAPE ".toList ++ "'!'".toList := rfl
      rw [String.toList_append, hclause]
      exact hwritten.between hword hescape
    · rwa [String.append_empty]
  · cases h

end JetSql.Target
