/-
How a written expression begins: with a mark or a literal, with one of five reserved words, or with
a dotted name. So no star is found there, no name with a star, and no other keyword.
-/

import JetSql.Proofs.Grammar.Form
import JetSql.Proofs.ReadBack.Leaf

namespace JetSql.Grammar

open Reader Node

variable {s rest : List Char} {node : Node}

/-- The reserved words that an expression may begin with. -/
def openers : List String :=
  ["NOT", "IIF", "TRUE", "FALSE", "NULL"]

/-- A text that begins as an expression does. -/
inductive Opens : List Char → Prop where
  /-- A mark, or a literal that is no word. -/
  | mark {c : Char} {rest : List Char} :
      skipSpacing (c :: rest) = c :: rest → Text.isWordStart c = false → c ≠ '*' → c ≠ '[' →
        Opens (c :: rest)
  | word {w : String} {rest : List Char} :
      w ∈ openers → rest.head?.any Text.isWordChar = false → Opens (w.toList ++ rest)
  | names {names : List Part} {rest : List Char} :
      names ≠ [] → (∀ p ∈ names, p.Formed) → rest.head?.any Text.isWordChar = false →
        rest.head? ≠ some '.' → Opens (partsSource names ++ rest)

/-- A character that may begin a literal, but no word and no mark. -/
def opensLiteral (c : Char) : Bool :=
  c == '\'' || c == '"' || c == '#' || c.isDigit

theorem isWordStart_eq_false_of_opensLiteral {c : Char} (h : opensLiteral c = true) :
    Text.isWordStart c = false := by
  rw [← Bool.not_eq_true]
  intro hc
  simp only [opensLiteral, isDigit_eq_false_of_isWordStart hc, Bool.or_eq_true, beq_iff_eq,
    Bool.false_eq_true, or_false] at h
  rcases h with (rfl | rfl) | rfl <;> exact absurd hc (by decide)

/-- What a written literal begins with: a character of its own, or one of three reserved words. -/
theorem Literal.source_begins {value : Literal} (h : value.Formed) :
    (∃ c cs, value.source = c :: cs ∧ opensLiteral c = true) ∨
      ∃ w ∈ ["TRUE", "FALSE", "NULL"], value.source = w.toList := by
  cases value with
  | string value quote => exact .inl ⟨quote, _, rfl, by rcases h.1 with rfl | rfl <;> rfl⟩
  | number text =>
    obtain ⟨c, cs, hc, hdigit⟩ := IsNumber.exists_cons h
    exact .inl ⟨c, cs, hc, by simp [opensLiteral, hdigit]⟩
  | bool value => cases value <;> exact .inr ⟨_, by decide, rfl⟩
  | null => exact .inr ⟨_, by decide, rfl⟩
  | date text => exact .inl ⟨'#', _, rfl, rfl⟩

theorem opens_literal {value : Literal} (h : value.Formed)
    (hrest : rest.head?.any Text.isWordChar = false) : Opens (value.source ++ rest) := by
  rcases Literal.source_begins h with ⟨c, cs, hs, hc⟩ | ⟨w, hw, hs⟩
  · rw [hs]
    refine .mark (skipSpacing_of_class (by decide) hc _) (isWordStart_eq_false_of_opensLiteral hc)
      ?_ ?_ <;>
    · rintro rfl
      exact absurd hc (by decide)
  · rw [hs]
    exact .word ((by decide : ["TRUE", "FALSE", "NULL"] ⊆ openers) hw) hrest

/-- The operand of a written minus sign is kept from it where it begins with another one. -/
theorem signSource_eq (expr : Node) :
    signSource expr = ['-', ' '] ∨ signSource expr = ['-'] ∧ ∀ inner, expr ≠ negate inner := by
  cases expr <;> simp [signSource]

theorem head?_literal_ne_minus {value : Literal} (h : value.Formed) (rest : List Char) :
    (value.source ++ rest).head? ≠ some '-' := by
  rcases Literal.source_begins h with ⟨c, cs, hs, hc⟩ | ⟨w, hw, hs⟩
  · rw [hs]
    rintro ⟨⟩
    exact absurd hc (by decide)
  · rw [hs]
    simp only [List.mem_cons, List.not_mem_nil, or_false] at hw
    rcases hw with rfl | rfl | rfl <;> simp

theorem head?_partsSource_ne {names : List Part} (hne : names ≠ []) (hnames : ∀ p ∈ names, p.Formed)
    {c : Char} (hc : Text.isWordStart c = false) (hbracket : c ≠ '[') (rest : List Char) :
    (partsSource names ++ rest).head? ≠ some c := by
  obtain ⟨p, names, rfl⟩ := List.exists_cons_of_ne_nil hne
  have hp := hnames p List.mem_cons_self
  rw [partsSource, intercalate_map_cons, List.append_assoc]
  obtain ⟨w, _ | _⟩ := p
  · exact hp.head?_ne hc _
  · simpa [Part.source] using hbracket.symm

/-- An operand that is no link and no minus sign does not begin with one. -/
theorem head?_source_ne_minus (h : Formed .expr node) (hspine : 10 ≤ node.spine)
    (hne : ∀ inner, node ≠ negate inner) (rest : List Char) :
    (node.source ++ rest).head? ≠ some '-' := by
  cases h with
  | @logical _ _ op =>
    have := (Link.logical op).precedence_lt
    simp only [spine, Link.precedence] at hspine this
    omega
  | @arithmetic _ _ op =>
    have := (Link.arithmetic op).precedence_lt
    simp only [spine, Link.precedence] at hspine this
    omega
  | compare | isNull | inList | between => simp only [Node.compare, spine] at hspine; omega
  | negate => exact absurd rfl (hne _)
  | not | grouped | conditional => simp [source_not, source_grouped, source_conditional]
  | call hcallee _ =>
    rw [source_call, List.append_assoc]
    exact hcallee.head?_ne (by decide) _
  | literal hvalue => exact head?_literal_ne_minus hvalue rest
  | identifier hnames hformed => exact head?_partsSource_ne hnames hformed (by decide) (by decide) rest

/-- **Every formed expression begins as an expression does.** -/
theorem opens_source (h : Formed .expr node) (hrest : Apart rest) : Opens (node.source ++ rest) := by
  generalize hrole : Role.expr = role at h
  induction h generalizing rest with
  | logical _ _ _ _ ihleft =>
    rw [source_logical, List.append_assoc, List.append_assoc]
    exact ihleft (apart_link _ (by simp)) rfl
  | arithmetic _ _ _ _ ihleft =>
    rw [source_arithmetic, List.append_assoc, List.append_assoc]
    exact ihleft (apart_link _ (by simp)) rfl
  | compare _ _ _ _ ihleft =>
    rw [source_compare, List.append_assoc, List.append_assoc]
    exact ihleft (apart_link _ (by simp)) rfl
  | isNull _ _ ihleft =>
    rw [source_isNull, List.append_assoc]
    exact ihleft (apart_link _ (hrest.head?_ne (by decide))) rfl
  | inList _ _ _ _ ihleft =>
    rw [source_inList, List.append_assoc, List.append_assoc]
    exact ihleft (apart_link _ (by simp)) rfl
  | between _ _ _ _ _ _ _ ihleft =>
    rw [source_between, List.append_assoc, List.append_assoc]
    exact ihleft (apart_link _ (by simp)) rfl
  | not => exact .word (w := "NOT") (by decide) (by rfl)
  | @negate expr hexpr hspine =>
    rw [source_negate]
    rcases signSource_eq expr with hsign | ⟨hsign, hne⟩
    · rw [hsign]
      exact .mark (skipSpacing_minus (by simp)) (by decide) (by decide) (by decide)
    · rw [hsign]
      exact .mark (skipSpacing_minus (head?_source_ne_minus hexpr hspine hne rest)) (by decide)
        (by decide) (by decide)
  | grouped =>
    exact .mark (skipSpacing_cons (by decide) (by decide) _) (by decide) (by decide) (by decide)
  | conditional => exact .word (w := "IIF") (by decide) (by rfl)
  | @call callee args hcallee _ =>
    rw [source_call, List.append_assoc]
    have hsource : callee.toList = partsSource [⟨callee, false⟩] := by
      simp [partsSource, Part.source]
    rw [hsource]
    exact .names (by simp) (List.forall_mem_singleton.mpr hcallee) rfl (by simp)
  | literal hvalue => exact opens_literal hvalue (hrest.head?_any (by decide))
  | identifier hne hnames =>
    exact .names hne hnames (hrest.head?_any (by decide)) (hrest.head?_ne (by decide))
  | _ => cases hrole

/-! ### What an expression does not begin with -/

theorem Opens.symbol_misses (h : Opens s) : Misses (symbol "*") s := by
  refine symbol_misses_of_head? (c := '*') rfl ?_
  cases h with
  | mark hskip _ hstar _ =>
    rw [hskip]
    simpa using hstar
  | @word w rest hw _ =>
    have hisword := (by decide : ∀ w ∈ openers, Text.isWord w.toList = true) w hw
    obtain ⟨c, cs, hcs, hc, -⟩ := Text.exists_of_isWord hisword
    rw [skipSpacing_word hisword, hcs]
    rintro ⟨⟩
    exact absurd hc (by decide)
  | names hne hnames _ _ =>
    rw [skipSpacing_partsSource hne hnames]
    exact head?_partsSource_ne hne hnames (by decide) (by decide) _

theorem name_misses_of_head? {s : List Char} (h : s.head?.any Text.isWordStart = false) :
    Misses name s :=
  satisfying_misses.mpr (.inl (word_misses.mpr h))

/-- No expression is a name with a star. -/
theorem Opens.qualifiedStar_misses {α : Type} (h : Opens s) (next : List Part → Reader α) :
    Misses (do
      let names ← parts
      exactly ".*"
      next names) s := by
  cases h with
  | @mark c rest hskip hword _ hbracket =>
    refine bind_misses.mpr (.inl (bind_misses.mpr (.inr ⟨(), _, spacing_eq_ok.mpr hskip, ?_⟩)))
    exact bind_misses.mpr (.inl (part_misses hskip (by simpa using hbracket)
      (name_misses_of_head? hword)))
  | @word w rest hw hrest =>
    have hreserved := (by decide : openers ⊆ reservedWords) hw
    have hisword := (by decide : ∀ w ∈ openers, Text.isWord w.toList = true) w hw
    have hskip := skipSpacing_word hisword rest
    have hbracket : (w.toList ++ rest).head? ≠ some '[' := by
      obtain ⟨c, cs, hcs, hc, -⟩ := Text.exists_of_isWord hisword
      rw [hcs]
      rintro ⟨⟩
      exact absurd hc (by decide)
    refine bind_misses.mpr (.inl (bind_misses.mpr (.inr ⟨(), _, spacing_eq_ok.mpr hskip, ?_⟩)))
    exact bind_misses.mpr (.inl (part_misses hskip hbracket (name_misses_reserved hreserved hrest)))
  | @names names rest hne hnames hrest hpoint =>
    have hstop : Misses (char '.' *> part) rest := seqRight_misses.mpr (.inl (char_misses.mpr hpoint))
    refine bind_misses.mpr (.inr ⟨names, rest, parts_source hne hnames hrest hstop, ?_⟩)
    refine bind_misses.mpr (.inl (exactly_misses.mpr ?_))
    rintro more rfl
    exact hpoint rfl

/-- Where a dotted name stands, no keyword is read. -/
theorem keyword_misses_partsSource {word : String} {names : List Part} (hne : names ≠ [])
    (hnames : ∀ p ∈ names, p.Formed) (hreserved : word ∈ reservedWords ∧ isSteady word = true)
    (hrest : rest.head?.any Text.isWordChar = false) :
    Misses (keyword word) (partsSource names ++ rest) := by
  have hword := (by decide : ∀ word ∈ reservedWords,
    word.toList ≠ [] ∧ word.toList.all Char.isUpper = true) word hreserved.1
  obtain ⟨p, names, rfl⟩ := List.exists_cons_of_ne_nil hne
  have hp := hnames p List.mem_cons_self
  rw [partsSource, intercalate_map_cons, List.append_assoc]
  obtain ⟨w, _ | _⟩ := p
  · refine keyword_misses_name hreserved hp ?_
    cases names with
    | nil => exact hrest
    | cons q names => rfl
  · exact keyword_misses_of_no_word hword (by rw [Part.skipSpacing_source hp]; rfl)

/-- No keyword is read but those that an expression begins with. -/
theorem Opens.keyword_misses {word : String} (h : Opens s)
    (hreserved : word ∈ reservedWords ∧ isSteady word = true)
    (hopeners : ∀ w ∈ openers, w.toList.map Char.toUpper ≠ word.toList) :
    Misses (keyword word) s := by
  have hword := (by decide : ∀ word ∈ reservedWords,
    word.toList ≠ [] ∧ word.toList.all Char.isUpper = true) word hreserved.1
  cases h with
  | mark hskip hstart _ _ =>
    exact keyword_misses_of_no_word hword (by rw [hskip]; exact hstart)
  | @word w rest hw hrest =>
    have hisword := (by decide : ∀ w ∈ openers, Text.isWord w.toList = true) w hw
    exact keyword_misses_word _ hreserved.2 hisword hrest (hopeners w hw)
  | names hne hnames hrest _ => exact keyword_misses_partsSource hne hnames hreserved hrest

end JetSql.Grammar
