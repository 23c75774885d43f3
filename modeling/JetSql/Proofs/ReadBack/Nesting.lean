/-
Written statements pass the scan.

Nothing that is written opens a comment: a minus sign is followed by a blank or by something that is
no minus sign, and what stands in quotes, number signs and brackets is passed over.

* **`parse_source`:** every formed statement that fits the limit is parsed from its text.
-/

import JetSql.Proofs.Grammar.Levels
import JetSql.Proofs.Grammar.Nesting
import JetSql.Proofs.ReadBack.Statement

namespace JetSql

namespace Grammar

open Node

/-- A text after which the comments are those of what follows it. -/
def Uncommented (text : List Char) : Prop :=
  ∀ rest, CommentsEndWell rest → CommentsEndWell (text ++ rest)

variable {text first second : List Char} {c delimiter : Char}

/-! ### Pieces of text -/

theorem uncommented_nil : Uncommented [] :=
  fun _ => id

theorem Uncommented.append (hfirst : Uncommented first) (hsecond : Uncommented second) :
    Uncommented (first ++ second) := by
  intro rest hrest
  rw [List.append_assoc]
  exact hfirst _ (hsecond rest hrest)

/-- A character that opens nothing. -/
def opensNothing (c : Char) : Bool :=
  isPlain c || c == '(' || c == ')'

theorem Uncommented.cons (htext : Uncommented text) (h : opensNothing c = true) :
    Uncommented (c :: text) := by
  intro rest hrest
  have hwell := htext rest hrest
  simp only [opensNothing, isPlain, Bool.or_eq_true, Bool.and_eq_true, bne_iff_ne, beq_iff_eq] at h
  rcases h with (⟨⟨⟨⟨⟨⟨hquote, hdouble⟩, hnumber⟩, hbracket⟩, hminus⟩, -⟩, -⟩ | rfl) | rfl
  · simpa [CommentsEndWell, commentsEndWell, closingDelimiter, hquote, hdouble, hnumber, hbracket,
      hminus] using hwell
  · simpa [CommentsEndWell, commentsEndWell, closingDelimiter] using hwell
  · simpa [CommentsEndWell, commentsEndWell, closingDelimiter] using hwell

theorem uncommented_of_all (text : List Char) (h : text.all opensNothing = true) :
    Uncommented text := by
  induction text with
  | nil => exact uncommented_nil
  | cons c text ih =>
    rw [List.all_cons, Bool.and_eq_true] at h
    exact (ih h.2).cons h.1

/-- A minus sign opens no comment where no other one follows. -/
theorem Uncommented.minus (htext : Uncommented text) (h : ∀ rest, (text ++ rest).head? ≠ some '-') :
    Uncommented ('-' :: text) := by
  intro rest hrest
  have hhead : ((text ++ rest).head? == some '-') = false := beq_eq_false_iff_ne.mpr (h rest)
  have hwell : commentsEndWell none (text ++ rest) = true := htext rest hrest
  rw [CommentsEndWell, List.cons_append, commentsEndWell, hhead, Bool.and_false, Bool.not_false,
    Bool.true_or, Bool.true_and]
  have hdelimiter : closingDelimiter '-' (text ++ rest) = none := by
    rw [closingDelimiter, hhead]
    decide
  rwa [hdelimiter]

theorem uncommented_intercalate {mark : List Char} {texts : List (List Char)}
    (hmark : Uncommented mark) (htexts : ∀ text ∈ texts, Uncommented text) :
    Uncommented (mark.intercalate texts) := by
  induction texts with
  | nil => exact uncommented_nil
  | cons text texts ih =>
    have htext := htexts text List.mem_cons_self
    have hmore := ih fun other hother => htexts other (List.mem_cons_of_mem _ hother)
    cases texts with
    | nil => simpa using htext
    | cons next texts =>
      rw [List.intercalate_cons_cons]
      exact (htext.append hmark).append hmore

/-! ### Names and literals -/

/-- What stands between a delimiter and the next one is passed over. -/
theorem commentsEndWell_inside {body : List Char} (hbody : delimiter ∉ body) (rest : List Char) :
    commentsEndWell (some delimiter) (body ++ delimiter :: rest) = commentsEndWell none rest := by
  induction body with
  | nil => simp [commentsEndWell]
  | cons c body ih =>
    rw [List.mem_cons, not_or] at hbody
    simpa [commentsEndWell, Ne.symm hbody.1] using ih hbody.2

theorem commentsEndWell_paired {quote : Char} {body : List Char} (hquote : quote = '\'' ∨ quote = '"')
    (hbody : Text.paired quote body = true) (rest : List Char) :
    commentsEndWell (some quote) (body ++ quote :: rest) = commentsEndWell none rest := by
  have hopening (s : List Char) :
      commentsEndWell none (quote :: s) = commentsEndWell (some quote) s := by
    rcases hquote with rfl | rfl <;> simp [commentsEndWell, closingDelimiter]
  fun_induction Text.paired quote body with
  | case1 => simp [commentsEndWell]
  | case2 c =>
    have hc : c ≠ quote := by simpa using hbody
    simp [commentsEndWell, hc]
  | case3 d body ih =>
    simp only [Bool.and_eq_true, beq_iff_eq] at hbody
    obtain ⟨rfl, hbody⟩ := hbody
    simp only [List.cons_append]
    rw [commentsEndWell, if_pos rfl, hopening, ih hbody]
  | case4 c d body hc ih =>
    simp only [List.cons_append] at ih ⊢
    rw [commentsEndWell, if_neg hc, ih hbody]

theorem uncommented_word {w : List Char} (h : Text.isWord w = true) : Uncommented w := by
  obtain ⟨c, cs, rfl, hc, hall⟩ := Text.exists_of_isWord h
  refine uncommented_of_all _ (List.all_eq_true.mpr fun d hd => ?_)
  have hplain : isPlain d = true := by
    rcases List.mem_cons.mp hd with rfl | hd
    · exact isPlain_of_class (p := Text.isWordStart) (by decide) hc
    · exact isPlain_of_class (p := Text.isWordChar) (by decide) (List.all_eq_true.mp hall d hd)
  simp [opensNothing, hplain]

theorem uncommented_digits {digits : List Char} (h : digits.all Char.isDigit = true) :
    Uncommented digits := by
  refine uncommented_of_all _ (List.all_eq_true.mpr fun c hc => ?_)
  simp [opensNothing, isPlain_of_class (p := Char.isDigit) (by decide) (List.all_eq_true.mp h c hc)]

theorem uncommented_number {text : List Char} (h : IsNumber text) : Uncommented text := by
  cases h with
  | whole _ hdigits => exact uncommented_digits hdigits
  | fraction _ hdigits _ hdecimals =>
    exact (uncommented_digits hdigits).append ((uncommented_digits hdecimals).cons (by decide))

theorem uncommented_part {p : Part} (h : p.Formed) : Uncommented p.source := by
  obtain ⟨w, _ | _⟩ := p
  · exact uncommented_word h.1
  · intro rest hrest
    have hbracket : ']' ∉ w.toList := fun hmem =>
      absurd (List.all_eq_true.mp h.1 _ hmem) (by decide)
    simpa [Part.source, CommentsEndWell, commentsEndWell, closingDelimiter,
      commentsEndWell_inside hbracket] using hrest

theorem uncommented_parts {names : List Part} (h : ∀ p ∈ names, p.Formed) :
    Uncommented (partsSource names) :=
  uncommented_intercalate (uncommented_of_all _ (by decide))
    (List.forall_mem_map.mpr fun p hp => uncommented_part (h p hp))

theorem uncommented_literal {value : Literal} (h : value.Formed) : Uncommented value.source := by
  cases value with
  | string value quote =>
    intro rest hrest
    have hquote := h.1
    rcases h.1 with rfl | rfl <;>
      simpa [Literal.source, CommentsEndWell, commentsEndWell, closingDelimiter,
        commentsEndWell_paired hquote h.2] using hrest
  | number text =>
    exact uncommented_number h
  | bool value => cases value <;> exact uncommented_of_all _ (by decide)
  | null => exact uncommented_of_all _ (by decide)
  | date text =>
    intro rest hrest
    have hnumber : '#' ∉ text.toList := fun hmem =>
      absurd (List.all_eq_true.mp h.1 _ hmem) (by decide)
    simpa [Literal.source, CommentsEndWell, commentsEndWell, closingDelimiter,
      commentsEndWell_inside hnumber] using hrest

/-! ### Trees -/

theorem uncommented_commas {texts : List (List Char)} (h : ∀ text ∈ texts, Uncommented text) :
    Uncommented (commas texts) :=
  uncommented_intercalate (uncommented_of_all _ (by decide)) h

/-- A link with a blank behind it opens nothing. -/
theorem Uncommented.link (h : Uncommented text) (link : Link) :
    Uncommented (link.source ++ ' ' :: text) := by
  have hblank : Uncommented (' ' :: text) := h.cons (by decide)
  have hminus : Uncommented (' ' :: '-' :: ' ' :: text) :=
    (hblank.minus (by simp)).cons (by decide)
  cases link with
  | logical op | compare op => cases op <;> exact (uncommented_of_all _ (by decide)).append hblank
  | arithmetic op =>
    cases op with
    | sub => exact hminus
    | _ => exact (uncommented_of_all _ (by decide)).append hblank
  | isNull negated | inList negated | between negated =>
    cases negated <;> exact (uncommented_of_all _ (by decide)).append hblank

theorem uncommented_alias {asName : Option Part} (h : ∀ p, asName = some p → p.Formed) :
    Uncommented (aliasSource asName) := by
  cases asName with
  | none => exact uncommented_nil
  | some p => exact (uncommented_of_all " AS ".toList (by decide)).append (uncommented_part (h p rfl))

theorem uncommented_top (top : Option Nat) : Uncommented (topSource top) := by
  cases top with
  | none => exact uncommented_nil
  | some rows =>
    refine (uncommented_of_all " TOP ".toList (by decide)).append
      (uncommented_digits (List.all_eq_true.mpr fun c hc => ?_))
    exact Nat.isDigit_of_mem_toDigits (by decide) (by decide) hc

/-- Two texts with words between them. -/
theorem Uncommented.between (h : Uncommented first) (word : String)
    (hword : word.toList.all opensNothing = true) (hsecond : Uncommented second) :
    Uncommented (first ++ word.toList ++ second) :=
  (h.append (uncommented_of_all _ hword)).append hsecond

theorem uncommented_list {opening : String} {texts : List (List Char)}
    (hopening : opening.toList.all opensNothing = true) (h : ∀ text ∈ texts, Uncommented text) :
    Uncommented (listSource opening texts) := by
  rw [listSource]
  split
  · exact uncommented_nil
  · exact (uncommented_of_all _ hopening).append ((uncommented_commas h).cons (by decide))

theorem uncommented_clause {opening : String} {clause : Option Node}
    (hopening : opening.toList.all opensNothing = true)
    (h : ∀ node ∈ clause.toList, Uncommented node.source) :
    Uncommented (clauseSource opening clause) := by
  cases clause with
  | none => exact uncommented_nil
  | some node =>
    exact (uncommented_of_all _ hopening).append ((h node (by simp)).cons (by decide))

/-- **Nothing that is written opens a comment.** -/
theorem uncommented_source {role : Role} {node : Node} (h : Formed role node) :
    Uncommented node.source := by
  have hplain (word : String) (hword : word.toList.all opensNothing = true) :
      Uncommented word.toList := uncommented_of_all _ hword
  have hblank {text : List Char} (h : Uncommented text) : Uncommented (' ' :: text) :=
    h.cons (by decide)
  have hclosed {text : List Char} (h : Uncommented text) : Uncommented ('(' :: (text ++ [')'])) :=
    (h.append (uncommented_of_all _ (by decide))).cons (by decide)
  induction h with
  | logical _ _ _ _ ihleft ihright | arithmetic _ _ _ _ ihleft ihright =>
    exact ihleft.append (ihright.link _)
  | @compare _ _ op _ _ _ _ ihleft ihright => exact ihleft.append (ihright.link (.compare op))
  | @isNull _ negated _ _ ih =>
    cases negated <;> exact ih.append (uncommented_of_all _ (by decide))
  | inList _ _ _ _ ih ihlist =>
    rw [source_inList]
    exact ih.append ((hclosed (uncommented_commas (List.forall_mem_map.mpr ihlist))).link _)
  | between _ _ _ _ _ _ _ ih ihlow ihhigh =>
    exact ih.append ((ihlow.between " AND " (by decide) ihhigh).link (.between _))
  | not _ _ ih => exact (hplain "NOT " (by decide)).append ih
  | @negate expr hexpr hspine ih =>
    rw [source_negate]
    rcases signSource_eq expr with hsign | ⟨hsign, hne⟩
    · rw [hsign]
      exact (hblank ih).minus (by simp)
    · rw [hsign]
      exact ih.minus (head?_source_ne_minus hexpr hspine hne)
  | grouped _ ih | groupedTables _ ih => exact hclosed ih
  | conditional _ _ _ ihcondition ihthen ihelse =>
    rw [source_conditional]
    refine (hplain "IIF" (by decide)).append (hclosed (uncommented_commas ?_))
    simp only [List.map_cons, List.map_nil, List.forall_mem_cons, List.not_mem_nil, false_imp_iff,
      implies_true, and_true]
    exact ⟨ihcondition, ihthen, ihelse⟩
  | call hcallee _ ih =>
    rw [source_call]
    have hargs := uncommented_commas (List.forall_mem_map.mpr ih)
    exact (uncommented_word hcallee.1).append (hclosed hargs)
  | literal hvalue => exact uncommented_literal hvalue
  | identifier _ hnames => exact uncommented_parts hnames
  | star | itemStar => exact uncommented_of_all ['*'] (by decide)
  | argument _ ih | factor _ ih | query _ ih => exact ih
  | tableRef _ hnames halias =>
    exact (uncommented_parts hnames).append (uncommented_alias fun p hp => (halias p hp).1)
  | @join _ _ _ kind _ _ _ ihleft ihright ihon =>
    have hkind : Uncommented kind.symbol.toList := by
      cases kind <;> exact uncommented_of_all _ (by decide)
    exact ihleft.append (hblank (hkind.append
      (hblank (ihright.between " ON " (by decide) ihon))))
  | qualifiedStar _ hnames => exact (uncommented_parts hnames).append (uncommented_of_all _ (by decide))
  | selectItem _ halias ih => exact ih.append (uncommented_alias halias)
  | @orderItem _ order _ ih =>
    refine ih.append ?_
    cases order with
    | none => exact uncommented_nil
    | some order => cases order <;> exact uncommented_of_all _ (by decide)
  | @select clauses _ _ _ _ _ _ _ _ ihitems ihtables ihcondition ihgroups ihhaving ihorders =>
    rw [source_query]
    have hselect : Uncommented
        (if clauses.distinct then "SELECT DISTINCT".toList else "SELECT".toList) := by
      split <;> exact uncommented_of_all _ (by decide)
    exact hselect.append <| (uncommented_top clauses.top).append <| hblank <|
      (uncommented_commas (List.forall_mem_map.mpr ihitems)).append <|
      (uncommented_list (by decide) (List.forall_mem_map.mpr ihtables)).append <|
      (uncommented_clause (by decide) ihcondition).append <|
      (uncommented_list (by decide) (List.forall_mem_map.mpr ihgroups)).append <|
      (uncommented_clause (by decide) ihhaving).append <|
      uncommented_list (by decide) (List.forall_mem_map.mpr ihorders)
  | crosstab _ _ _ ihvalue ihselect ihpivot =>
    exact (hplain "TRANSFORM " (by decide)).append (ihvalue.append
      (hblank (ihselect.between " PIVOT " (by decide) ihpivot)))

/-- **Every formed statement that fits the limit is parsed from its text.** -/
theorem parse_source {limit : Nat} {node : Node} (h : Formed .statement node)
    (hlevels : node.levels ≤ limit - 1) : parse (String.ofList node.source) limit = .ok node := by
  have hread := read_source limit h hlevels
  have hcomments : CommentsEndWell node.source := by
    simpa using uncommented_source h [] rfl
  have hdepth := nestingDepth_le_of_read (.inr hcomments) hread
  rw [parse, String.toList_ofList, if_neg (by omega), hread]

/-! ### One expression -/

variable {expr : Node}

theorem levels_selecting_le {b : Nat} (h : expr.levels ≤ b) : (selecting expr).levels ≤ b :=
  levels_le_of_children rfl (Nat.zero_le _) (List.forall_mem_singleton.mpr
    (levels_le_of_children rfl (Nat.zero_le _) (List.forall_mem_singleton.mpr h)))

/-- A statement is parsed if the expression it selects is formed and fits the limit. -/
theorem parse_selecting {limit : Nat} (h : Formed .expr expr) (hlevels : expr.levels ≤ limit - 1) :
    parse (String.ofList (selecting expr).source) limit = .ok (selecting expr) :=
  parse_source (formed_selecting h) (levels_selecting_le hlevels)

/-- A text is parsed as a statement whose source text it is. -/
theorem parse_of_selecting {limit : Nat} {text : String} (h : Formed .expr expr)
    (hlevels : expr.levels ≤ limit - 1) (htext : (selecting expr).source = text.toList) :
    parse text limit = .ok (selecting expr) := by
  have hparse := parse_selecting h hlevels
  rwa [htext, String.ofList_toList] at hparse

end Grammar

end JetSql
