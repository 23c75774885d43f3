/-
How a phrase begins in any text, and what its text goes on with.

An alternative is taken where those before it miss. Which of them miss is decided by the first
character of the text, by its first word, and behind an operand by what comes next: a name before a
parenthesis would be a call, and a name before a point would go on. `Bounded` says that neither comes
next, and it is so wherever a token comes that may follow an operand.

* **`leading_of_literal_ok`, `leading_of_identifier`, …:** each way to begin an operand is the one that
  the reader takes.
* **`EndsBefore`:** a text that a `SELECT` leaves, or leaves before one of some clauses.
-/

import JetSql.Proofs.Complete.Length
import JetSql.Proofs.ReadBack.Statement

namespace JetSql.Grammar

open Reader Node

variable {s start stop rest middle opening : List Char} {limit b : Nat} {node : Node}
  {word other : String}

/-! ### Spacing before a token -/

theorem keyword_skipSpacing (word : String) (s : List Char) :
    keyword word (skipSpacing s) = keyword word s :=
  keyword_congr (skipSpacing_skipSpacing s)

theorem leading_skipSpacing (limit : Nat) (below : Option Below) (s : List Char) :
    leading limit below (skipSpacing s) = leading limit below s := by
  rw [leading, bind_apply, bind_apply, spacing, spacing, skipSpacing_skipSpacing]

/-! ### Words -/

/-- Where a keyword is read, a word stands that is the same up to case. -/
theorem exists_word_of_keyword (hword : word.toList ≠ [] ∧ word.toList.all Char.isUpper = true)
    (h : keyword word s = .ok () rest) :
    ∃ w, skipSpacing s = w ++ rest ∧ Text.isWord w = true ∧ w.map Char.toUpper = word.toList ∧
      rest.head?.any Text.isWordChar = false := by
  obtain ⟨⟨w, hs, hw⟩, hrest⟩ := keyword_eq_ok.mp h
  refine ⟨w, hs, ?_, hw, hrest⟩
  obtain ⟨hne, hall⟩ := hword
  rw [← hw] at hne hall
  cases w with
  | nil => exact absurd rfl hne
  | cons c w =>
    have hstart : ∀ d ∈ c :: w, Text.isWordStart d = true := by
      intro d hd
      exact isWordStart_of_isUpper_toUpper (List.all_eq_true.mp hall _ (List.mem_map_of_mem hd))
    rw [Text.isWord, Bool.and_eq_true, List.all_eq_true]
    exact ⟨hstart c List.mem_cons_self,
      fun d hd => Text.isWordChar_of_isWordStart (hstart d (List.mem_cons_of_mem c hd))⟩

/-- Where one keyword is read, no other one is. -/
theorem keyword_misses_of_keyword
    (hother : other.toList ≠ [] ∧ other.toList.all Char.isUpper = true)
    (hword : isSteady word = true) (hne : other ≠ word)
    (h : keyword other s = .ok () rest) : Misses (keyword word) s := by
  obtain ⟨w, hs, hw, hupper, hrest⟩ := exists_word_of_keyword hother h
  rw [Misses, ← keyword_skipSpacing, hs]
  refine keyword_misses_word word hword hw hrest fun heq => hne ?_
  rw [← String.toList_inj, ← hupper, heq]

/-- Where a reserved word is read, no name is. -/
theorem name_misses_of_keyword (hreserved : word ∈ reservedWords) (h : keyword word s = .ok () rest) :
    Misses name (skipSpacing s) := by
  have hword := (by decide : ∀ word ∈ reservedWords,
    word.toList ≠ [] ∧ word.toList.all Char.isUpper = true) word hreserved
  obtain ⟨w, hs, hw, hupper, hrest⟩ := exists_word_of_keyword hword h
  have hread : Grammar.word (skipSpacing s) = .ok (String.ofList w) rest :=
    word_eq_ok.mpr ⟨by simpa using hs, by simpa using hw, hrest⟩
  refine satisfying_misses.mpr (.inr ⟨String.ofList w, rest, hread, ?_⟩)
  rw [isReserved, Text.toUpper_eq word (by simpa using hupper), List.contains_iff_mem.mpr hreserved]
  rfl

theorem head?_of_word (hword : word.toList ≠ [] ∧ word.toList.all Char.isUpper = true)
    (h : keyword word s = .ok () rest) : (skipSpacing s).head?.any Text.isWordStart = true := by
  obtain ⟨w, hs, hw, -, -⟩ := exists_word_of_keyword hword h
  obtain ⟨c, cs, rfl, hc, -⟩ := Text.exists_of_isWord hw
  simpa [hs] using hc

theorem head?_of_name {w : String} (h : name s = .ok w rest) :
    s.head?.any Text.isWordStart = true := by
  obtain ⟨rfl, hw, -⟩ := name_eq_ok.mp h
  obtain ⟨c, cs, hcs, hc, -⟩ := Text.exists_of_isWord hw.1
  simpa [hcs] using hc

/-- A name is no keyword. -/
theorem keyword_misses_of_name {w : String}
    (hreserved : word ∈ reservedWords ∧ isSteady word = true) (h : name s = .ok w rest) : Misses (keyword word) s := by
  obtain ⟨rfl, hw, hrest⟩ := name_eq_ok.mp h
  exact keyword_misses_name hreserved hw hrest

/-! ### Literals and dotted names -/

/-- A literal begins with a character of its own or is one of three words. -/
theorem cases_of_literal (h : literal s = .ok node rest) :
    (skipSpacing s).head?.any opensLiteral = true ∨
      ∃ word ∈ ["TRUE", "FALSE", "NULL"], ∃ t, keyword word s = .ok () t := by
  simp only [literal, bind_eq_ok, spacing_eq_ok, orElse_eq_ok, seqRight_eq_ok] at h
  obtain ⟨⟨⟩, _, rfl, value, _, hvalue, -⟩ := h
  have hkeyword (word : String) (hword : word ∈ ["TRUE", "FALSE", "NULL"]) {t : List Char}
      (h : keyword word (skipSpacing s) = .ok () t) :
      ∃ word ∈ ["TRUE", "FALSE", "NULL"], ∃ t, keyword word s = .ok () t :=
    ⟨word, hword, t, by rwa [← keyword_skipSpacing]⟩
  rcases hvalue with h | ⟨-, h | ⟨-, h | ⟨-, h | ⟨-, h | ⟨-, h | ⟨-, h⟩⟩⟩⟩⟩⟩
  · obtain ⟨body, -, hs, -⟩ := stringLiteral_eq_ok.mp h
    exact .inl (by simp [hs, opensLiteral])
  · obtain ⟨body, -, hs, -⟩ := stringLiteral_eq_ok.mp h
    exact .inl (by simp [hs, opensLiteral])
  · obtain ⟨body, -, hs, -⟩ := dateLiteral_eq_ok.mp h
    exact .inl (by simp [hs, opensLiteral])
  · obtain ⟨text, -, hs, hnumber⟩ := isNumber_of_numberLiteral h
    obtain ⟨c, cs, rfl, hdigit⟩ := IsNumber.exists_cons hnumber
    exact .inl (by simp [hs, opensLiteral, hdigit])
  all_goals
    obtain ⟨⟨⟩, _, h, -⟩ := h
    exact .inr (hkeyword _ (by decide) h)

/-- A dotted name begins with a bracket or with a bare name, which is all of it or stands before a
point. -/
theorem cases_of_parts {names : List Part} (h : parts s = .ok names middle) :
    (∃ t, skipSpacing s = '[' :: t) ∨
      ∃ w after, name (skipSpacing s) = .ok w after ∧ (middle = after ∨ after.head? = some '.') := by
  obtain ⟨⟨⟩, start, hstart, h⟩ := bind_eq_ok.mp h
  rw [spacing_eq_ok] at hstart
  have hfirst : ∃ p after, part start = .ok p after ∧ (middle = after ∨ after.head? = some '.') := by
    cases listed_of_separated1 h with
    | last hpart => exact ⟨_, _, hpart, .inl rfl⟩
    | cons hpart hpoint _ => exact ⟨_, _, hpart, .inr (by rw [char_eq_ok.mp hpoint]; rfl)⟩
  obtain ⟨p, after, hpart, hafter⟩ := hfirst
  obtain ⟨hs, hformed, hrest⟩ := part_eq_ok.mp hpart
  rw [← hstart, skipSpacing_skipSpacing] at hs
  obtain ⟨w, _ | _⟩ := p
  · exact .inr ⟨w, after, name_eq_ok.mpr ⟨hs, hformed, hrest rfl⟩, hafter⟩
  · exact .inl ⟨_, hs⟩

theorem parts_skipSpacing (s : List Char) : parts (skipSpacing s) = parts s := by
  rw [parts, bind_apply, bind_apply, spacing, spacing, skipSpacing_skipSpacing]

/-! ### What may follow an operand -/

/-- Where no word begins, looking for a link breaks no reading off. -/
theorem unbroken_of_no_word (hs : (skipSpacing s).head?.any Text.isWordStart = false) : Unbroken s := by
  refine unbroken_of_like (fun error hhalt => ?_) fun t hnot => ?_
  · have hmisses : Misses (keyword "LIKE") s := keyword_misses_of_no_word (by decide) hs
    exact hmisses.ne_halt hhalt
  · rw [head?_of_word (by decide) hnot] at hs
    cases hs

/-- Where a keyword other than `NOT` is read, looking for a link breaks no reading off. -/
theorem unbroken_of_keyword
    (hword : (word.toList ≠ [] ∧ word.toList.all Char.isUpper = true) ∧ word ≠ "NOT")
    (h : keyword word s = .ok () rest) : Unbroken s := by
  refine unbroken_of_like (keyword_ne_halt ?_) fun t hnot => ?_
  · obtain ⟨w, hs, hw, hupper, hrest⟩ := exists_word_of_keyword hword.1 h
    rw [hs]
    refine splitsCharacter_of_word (by decide) (fun hsign => ?_) hrest
    have hall := List.all_eq_true.mp hword.1.2 kelvinSign.toUpper
      (hupper ▸ List.mem_map_of_mem hsign)
    exact absurd hall (by decide)
  · have hmisses : Misses (keyword "NOT") s :=
      keyword_misses_of_keyword hword.1 (by decide) hword.2 h
    exact absurd hnot hmisses.ne_ok

/-- Nothing comes next that would make a call of a name, go on with it, or break the reading off. -/
structure Bounded (s : List Char) : Prop where
  noCall : Misses (symbol "(") s
  noPoint : s.head? ≠ some '.'
  unbroken : Unbroken s

theorem bounded_of_head? (hs : Unbroken s)
    (h : ∀ c, (skipSpacing s).head? = some c → c ≠ '(' ∧ c ≠ '.') : Bounded s := by
  refine ⟨symbol_misses_of_head? (c := '(') rfl fun hhead => (h _ hhead).1 rfl, ?_, hs⟩
  intro hhead
  obtain ⟨t, rfl⟩ : ∃ t, s = '.' :: t := by
    cases s <;> simp_all
  exact (h '.' (by rw [skipSpacing_cons (by decide) (by decide)]; rfl)).2 rfl

theorem bounded_of_word (hs : Unbroken s)
    (hword : word.toList ≠ [] ∧ word.toList.all Char.isUpper = true)
    (h : keyword word s = .ok () rest) : Bounded s := by
  refine bounded_of_head? hs fun c hc => ?_
  have hstart := head?_of_word hword h
  rw [hc, Option.any_some] at hstart
  constructor <;>
  · rintro rfl
    exact absurd hstart (by decide)

theorem bounded_of_keyword
    (hword : (word.toList ≠ [] ∧ word.toList.all Char.isUpper = true) ∧ word ≠ "NOT")
    (h : keyword word s = .ok () rest) : Bounded s :=
  bounded_of_word (unbroken_of_keyword hword h) hword.1 h

theorem bounded_of_mark {mark : String} {value : Unit} (hs : Unbroken s)
    (hmark : mark.toList ≠ [] ∧ mark.toList.head? ≠ some '(' ∧ mark.toList.head? ≠ some '.')
    (h : symbol mark s = .ok value rest) : Bounded s := by
  obtain ⟨hne, hparen, hpoint⟩ := hmark
  obtain ⟨c, cs, hcs⟩ := List.exists_cons_of_ne_nil hne
  rw [hcs] at hparen hpoint
  refine bounded_of_head? hs fun d hd => ?_
  rw [symbol_eq_ok.mp h, hcs] at hd
  obtain rfl : c = d := Option.some.inj hd
  exact ⟨fun heq => hparen (by rw [heq]; rfl), fun heq => hpoint (by rw [heq]; rfl)⟩

/-- No link begins with any of the marks that end a phrase. -/
theorem bounded_of_symbol {mark : String} {value : Unit}
    (hmark : (mark.toList ≠ [] ∧ mark.toList.head? ≠ some '(' ∧ mark.toList.head? ≠ some '.') ∧
      mark.toList.head?.any Text.isWordStart = false)
    (h : symbol mark s = .ok value rest) : Bounded s := by
  refine bounded_of_mark (unbroken_of_no_word ?_) hmark.1 h
  obtain ⟨c, cs, hcs⟩ := List.exists_cons_of_ne_nil hmark.1.1
  rw [symbol_eq_ok.mp h, hcs]
  simpa [hcs] using hmark.2

/-- What begins with a token that may follow an operand is bounded by it. -/
theorem bounded_of_seqRight {α β : Type} {first : Reader α} {second : Reader β} {value : β}
    (hfirst : ∀ value rest, first s = .ok value rest → Bounded s)
    (h : (first *> second) s = .ok value rest) : Bounded s := by
  obtain ⟨value, middle, hread, -⟩ := seqRight_eq_ok.mp h
  exact hfirst value middle hread

theorem bounded_of_read? {link : Link} (h : Link.read? s = some (link, rest)) : Bounded s := by
  have hs : Unbroken s := by
    intro error
    rw [found?_eq_some.mp h]
    nofun
  have hreaders : ∀ reader ∈ Link.readers, ∀ value rest, reader s = .ok value rest → Bounded s := by
    have hword {word : String} (hword : word.toList ≠ [] ∧ word.toList.all Char.isUpper = true)
        (value : Unit) (rest : List Char) (h : keyword word s = .ok value rest) : Bounded s :=
      bounded_of_word hs hword h
    have hmark {mark : String}
        (hmark : mark.toList ≠ [] ∧ mark.toList.head? ≠ some '(' ∧ mark.toList.head? ≠ some '.')
        (value : Unit) (rest : List Char) (h : symbol mark s = .ok value rest) : Bounded s :=
      bounded_of_mark hs hmark h
    simp only [Link.readers, List.forall_mem_cons, List.not_mem_nil, false_imp_iff, implies_true,
      and_true]
    repeat' apply And.intro
    all_goals
      intro value rest
      first
      | exact bounded_of_seqRight (hmark (by decide))
      | exact bounded_of_seqRight (hword (by decide))
      | exact bounded_of_seqRight fun _ _ => bounded_of_seqRight (hword (by decide))
      | exact bounded_of_seqRight fun _ _ => bounded_of_seqRight fun _ _ =>
          bounded_of_seqRight (hword (by decide))
  obtain ⟨reader, hmem, hread⟩ := exists_of_firstOf_eq_some h
  exact hreaders reader hmem link rest hread

theorem bounded_of_readJoin? {kind : JoinKind} (h : readJoin? s = some (kind, rest)) : Bounded s := by
  have hword {word : String}
      (hword : (word.toList ≠ [] ∧ word.toList.all Char.isUpper = true) ∧ word ≠ "NOT")
      (value : Unit) (rest : List Char) (h : keyword word s = .ok value rest) : Bounded s :=
    bounded_of_keyword hword h
  have hreaders : ∀ reader ∈ joinReaders, ∀ value rest, reader s = .ok value rest → Bounded s := by
    simp only [joinReaders, List.forall_mem_cons, List.not_mem_nil, false_imp_iff, implies_true,
      and_true]
    exact ⟨fun _ _ => bounded_of_seqRight fun _ _ => bounded_of_seqRight (hword (by decide)),
      fun _ _ => bounded_of_seqRight fun _ _ => bounded_of_seqRight fun _ _ =>
        bounded_of_seqRight (hword (by decide)),
      fun _ _ => bounded_of_seqRight fun _ _ => bounded_of_seqRight fun _ _ =>
        bounded_of_seqRight (hword (by decide))⟩
  obtain ⟨reader, hmem, hread⟩ := exists_of_firstOf_eq_some h
  exact hreaders reader hmem kind rest hread

/-! ### What may begin an operand -/

/-- A character that an operand may begin with. -/
def opensOperand (c : Char) : Bool :=
  c == '-' || c == '(' || c == '[' || Text.isWordStart c || opensLiteral c

theorem head?_any_mono {p q : Char → Bool} (h : s.head?.any p = true)
    (hpq : ∀ c, p c = true → q c = true) :
    s.head?.any q = true := by
  cases s with
  | nil => cases h
  | cons c s => exact hpq c h

theorem head?_of_leading (h : Derives .leading b s node rest) :
    (skipSpacing s).head?.any opensOperand = true := by
  have hword {s : List Char} (h : s.head?.any Text.isWordStart = true) :
      s.head?.any opensOperand = true :=
    head?_any_mono h fun c hc => by simp [opensOperand, hc]
  have hkeyword {word : String} {rest : List Char}
      (hupper : word.toList ≠ [] ∧ word.toList.all Char.isUpper = true)
      (h : keyword word (skipSpacing s) = .ok () rest) :
      (skipSpacing s).head?.any opensOperand = true := by
    rw [keyword_skipSpacing] at h
    exact hword (head?_of_word hupper h)
  cases h with
  | not hnot _ => exact hkeyword (by decide) hnot
  | negate hminus _ => rw [hminus]; rfl
  | grouped hopen _ _ => rw [hopen]; rfl
  | conditional hiif _ _ _ _ => exact hkeyword (by decide) hiif
  | callEmpty hname _ _ | call hname _ _ _ _ => exact hword (head?_of_name hname)
  | literal h =>
    rcases cases_of_literal h with hhead | ⟨word, hmem, t, hread⟩
    · rw [skipSpacing_skipSpacing] at hhead
      exact head?_any_mono hhead fun c hc => by simp [opensOperand, hc]
    · exact hkeyword ((by decide : ∀ word ∈ ["TRUE", "FALSE", "NULL"],
        word.toList ≠ [] ∧ word.toList.all Char.isUpper = true) word hmem) hread
  | identifier h =>
    obtain ⟨names, _, hnames, -⟩ := bind_eq_ok.mp h
    rcases cases_of_parts hnames with ⟨t, ht⟩ | ⟨w, after, hname, -⟩
    · rw [skipSpacing_skipSpacing] at ht
      rw [ht]
      rfl
    · rw [skipSpacing_skipSpacing] at hname
      exact hword (head?_of_name hname)

/-- No operand begins with a star. -/
theorem star_misses_of_operand {least : Nat} (h : Derives (.operand least) b s node rest) :
    Misses (symbol "*") s := by
  cases h with
  | operand hleading _ =>
    have hhead := head?_of_leading hleading
    refine symbol_misses_of_head? (c := '*') rfl fun hstar => ?_
    rw [hstar] at hhead
    exact absurd hhead (by decide)

/-- A dotted name at the beginning of an operand does not stand before a point, if the operand does
not. -/
theorem head?_of_parts_of_operand {least : Nat} {names : List Part}
    (h : Derives (.operand least) b s node rest) (hrest : rest.head? ≠ some '.')
    (hparts : parts s = .ok names middle) : middle.head? ≠ some '.' := by
  have hreserved {word : String} {t : List Char} (hword : word ∈ reservedWords)
      (h : keyword word (skipSpacing s) = .ok () t) : False := by
    rcases cases_of_parts hparts with ⟨u, hu⟩ | ⟨w, after, hname, -⟩
    · have hstart := head?_of_word ((by decide : ∀ word ∈ reservedWords,
        word.toList ≠ [] ∧ word.toList.all Char.isUpper = true) word hword) h
      rw [skipSpacing_skipSpacing, hu, List.head?_cons] at hstart
      exact absurd hstart (by decide)
    · rw [keyword_skipSpacing] at h
      exact (name_misses_of_keyword hword h).ne_ok hname
  have hmark {c : Char} {t : List Char} (hc : Text.isWordStart c = false) (hbracket : c ≠ '[')
      (h : skipSpacing s = c :: t) : False := by
    rcases cases_of_parts hparts with ⟨u, hu⟩ | ⟨w, after, hname, -⟩
    · rw [h] at hu
      exact hbracket (List.cons.inj hu).1
    · have hstart := head?_of_name hname
      rw [h, List.head?_cons, Option.any_some, hc] at hstart
      cases hstart
  have hcall {callee : String} {opening start : List Char}
      (hname : name (skipSpacing s) = .ok callee opening)
      (hopen : symbol "(" opening = .ok () start) : middle.head? ≠ some '.' := by
    have hpoint : opening.head? ≠ some '.' := by
      intro hhead
      obtain ⟨t, rfl⟩ : ∃ t, opening = '.' :: t := by
        cases opening <;> simp_all
      rw [symbol_eq_ok, skipSpacing_cons (by decide) (by decide)] at hopen
      cases hopen
    rcases cases_of_parts hparts with ⟨u, hu⟩ | ⟨w, after, hname', hafter⟩
    · have hstart := head?_of_name hname
      rw [hu, List.head?_cons] at hstart
      exact absurd hstart (by decide)
    · rw [hname] at hname'
      cases hname'
      rcases hafter with rfl | hafter
      · exact hpoint
      · exact absurd hafter hpoint
  cases h with
  | operand hleading hchain =>
    cases hleading with
    | not hnot _ => exact (hreserved (by decide) hnot).elim
    | negate hminus _ => exact (hmark (by decide) (by decide) hminus).elim
    | grouped hopen _ _ => exact (hmark (by decide) (by decide) hopen).elim
    | conditional hiif _ _ _ _ => exact (hreserved (by decide) hiif).elim
    | callEmpty hname hopen _ | call hname hopen _ _ _ => exact hcall hname hopen
    | literal hliteral =>
      rcases cases_of_literal hliteral with hhead | ⟨word, hmem, t, hread⟩
      · rw [skipSpacing_skipSpacing] at hhead
        cases hs : skipSpacing s with
        | nil => simp [hs] at hhead
        | cons c t =>
          rw [hs, List.head?_cons] at hhead
          refine (hmark (isWordStart_eq_false_of_opensLiteral hhead) ?_ hs).elim
          rintro rfl
          exact absurd hhead (by decide)
      · exact (hreserved ((by decide : ["TRUE", "FALSE", "NULL"] ⊆ reservedWords) hmem) hread).elim
    | identifier hidentifier =>
      obtain ⟨names', middle', hnames', hnode⟩ := bind_eq_ok.mp hidentifier
      rw [parts_skipSpacing, hparts] at hnames'
      cases hnames'
      obtain ⟨rfl, rfl⟩ := pure_eq_ok.mp hnode
      intro hpoint
      obtain ⟨t, rfl⟩ : ∃ t, middle = '.' :: t := by
        cases middle <;> simp_all
      cases hchain with
      | chainStop _ => exact hrest hpoint
      | chainLink hread _ _ _ => cases hread

/-- An operand is no name with a star. -/
theorem qualifiedStar_misses_of_operand {α : Type} {least : Nat}
    (h : Derives (.operand least) b s node rest) (hrest : rest.head? ≠ some '.')
    (next : List Part → Reader α) : Misses (do
      let names ← parts
      exactly ".*"
      next names) s := by
  rw [bind_misses]
  by_cases hparts : ∃ names middle, parts s = .ok names middle
  · obtain ⟨names, middle, hparts⟩ := hparts
    have hpoint := head?_of_parts_of_operand h hrest hparts
    refine .inr ⟨names, middle, hparts, bind_misses.mpr (.inl (exactly_misses.mpr ?_))⟩
    rintro more rfl
    exact hpoint rfl
  · exact .inl (misses_of_not_ok (neverHalts_parts s) fun names middle hok =>
      hparts ⟨names, middle, hok⟩)

/-- A mark is not read where a dotted name comes next. -/
theorem symbol_misses_of_parts {mark : String} {c : Char} {names : List Part}
    (hmark : mark.toList.head? = some c) (hc : c ≠ '[' ∧ Text.isWordStart c = false)
    (h : parts s = .ok names middle) : Misses (symbol mark) s := by
  refine symbol_misses_of_head? hmark fun hhead => ?_
  rcases cases_of_parts h with ⟨t, ht⟩ | ⟨w, after, hname, -⟩
  · rw [ht, List.head?_cons, Option.some.injEq] at hhead
    exact hc.1 hhead.symm
  · have hstart := head?_of_name hname
    rw [hhead, Option.any_some, hc.2] at hstart
    cases hstart

/-! ### What an operand begins with is read -/

theorem leading_of_not {t : List Char} (hnot : keyword "NOT" (skipSpacing s) = .ok () t)
    (h : operand limit b 4 t = .ok node rest) :
    leading limit (belowAt limit (b + 1)) s = .ok (.not node) rest := by
  refine bind_eq_ok.mpr ⟨(), skipSpacing s, rfl,
    bind_eq_ok.mpr ⟨some (), t, optional_eq_some.mpr hnot, ?_⟩⟩
  exact bind_eq_ok.mpr ⟨node, rest, h, rfl⟩

theorem leading_of_minus {t : List Char} (hminus : skipSpacing s = '-' :: t)
    (h : operand limit b 10 t = .ok node rest) :
    leading limit (belowAt limit (b + 1)) s = .ok (.negate node) rest := by
  rw [← leading_skipSpacing, hminus]
  refine leading_negate ?_ h
  rw [← hminus, skipSpacing_skipSpacing]

theorem leading_of_parenthesis (hopen : skipSpacing s = '(' :: start)
    (h : operand limit b loosest start = .ok node stop) (hclose : symbol ")" stop = .ok () rest) :
    leading limit (belowAt limit (b + 1)) s = .ok (.grouped node) rest := by
  have hskip : skipSpacing ('(' :: start) = '(' :: start := skipSpacing_cons (by decide) (by decide) _
  rw [← leading_skipSpacing, hopen]
  refine leading_of_primary hskip (keyword_misses_of_no_word (by decide) (by rw [hskip]; rfl))
    (by simp) (orElse_eq_ok.mpr (.inl (bind_eq_ok.mpr ⟨(), start, char_eq_ok.mpr rfl, ?_⟩)))
  exact bind_eq_ok.mpr ⟨node, stop, h, bind_eq_ok.mpr ⟨(), rest, expecting_eq_ok.mpr hclose, rfl⟩⟩

/-- A word that begins no negation and is not in parentheses. -/
theorem leading_of_word {below : Option Below} (hnot : Misses (keyword "NOT") s)
    (hword : (skipSpacing s).head?.any Text.isWordStart = true)
    (h : (Grammar.conditional limit below <|> (Grammar.call limit below <|> (literal <|> identifier)))
      (skipSpacing s) = .ok node rest) : leading limit below s = .ok node rest := by
  have hhead {c : Char} (hc : Text.isWordStart c = false) : (skipSpacing s).head? ≠ some c :=
    head?_ne_of_wordStart hword hc
  rw [← leading_skipSpacing]
  refine leading_of_primary (skipSpacing_skipSpacing s) ?_ (hhead (by decide))
    (orElse_eq_ok.mpr (.inr ⟨parenthesized_misses (hhead (by decide)), h⟩))
  rwa [Misses, keyword_skipSpacing]

theorem leading_of_iif {condition thenValue elseValue : Node}
    (hiif : keyword "IIF" (skipSpacing s) = .ok () opening)
    (hargs : arguments limit (belowAt limit b) opening = .ok [condition, thenValue, elseValue] rest) :
    leading limit (belowAt limit b) s = .ok (.conditional condition thenValue elseValue) rest := by
  have hread := hiif
  rw [keyword_skipSpacing] at hread
  refine leading_of_word (keyword_misses_of_keyword (by decide) (by decide) (by decide) hread)
    (head?_of_word (by decide) hread) (orElse_eq_ok.mpr (.inl ?_))
  exact bind_eq_ok.mpr ⟨(), opening, hiif, bind_eq_ok.mpr ⟨_, rest, hargs, rfl⟩⟩

theorem leading_of_callee {callee : String} {args : List Node}
    (hname : name (skipSpacing s) = .ok callee opening)
    (hargs : arguments limit (belowAt limit b) opening = .ok args rest) :
    leading limit (belowAt limit b) s = .ok (.call callee args) rest := by
  have hkeyword (word : String) (hword : word ∈ reservedWords ∧ isSteady word = true) :
      Misses (keyword word) (skipSpacing s) := keyword_misses_of_name hword hname
  have hnot : Misses (keyword "NOT") s := by
    have := hkeyword "NOT" (by decide)
    rwa [Misses, keyword_skipSpacing] at this
  refine leading_of_word hnot (head?_of_name hname)
    (orElse_eq_ok.mpr (.inr ⟨conditional_misses (hkeyword _ (by decide)), orElse_eq_ok.mpr (.inl ?_)⟩))
  exact bind_eq_ok.mpr ⟨callee, opening, hname, bind_eq_ok.mpr ⟨args, rest, hargs, rfl⟩⟩

theorem leading_of_literal_ok {below : Option Below} (h : literal (skipSpacing s) = .ok node rest) :
    leading limit below s = .ok node rest := by
  have hskip := skipSpacing_skipSpacing s
  rw [← leading_skipSpacing]
  rcases cases_of_literal h with hhead | ⟨word, hmem, t, hread⟩
  · rw [hskip] at hhead
    have hnoword : (skipSpacing s).head?.any Text.isWordStart = false := by
      cases hs : skipSpacing s with
      | nil => rfl
      | cons c t =>
        rw [hs] at hhead
        exact isWordStart_eq_false_of_opensLiteral hhead
    have hkeyword (word : String) (hword : word.toList ≠ [] ∧ word.toList.all Char.isUpper = true) :
        Misses (keyword word) (skipSpacing s) :=
      keyword_misses_of_no_word hword (by rwa [hskip])
    have hne {c : Char} (hc : opensLiteral c = false) : (skipSpacing s).head? ≠ some c := by
      intro heq
      rw [heq, Option.any_some, hc] at hhead
      cases hhead
    exact leading_of_literal hskip (hkeyword _ (by decide)) (hkeyword _ (by decide))
      (name_misses_of_head? hnoword) (hne (by decide)) (hne (by decide)) h
  · have hupper := (by decide : ∀ word ∈ ["TRUE", "FALSE", "NULL"],
      word.toList ≠ [] ∧ word.toList.all Char.isUpper = true) word hmem
    have hreserved := (by decide : ["TRUE", "FALSE", "NULL"] ⊆ reservedWords) hmem
    have hstart := head?_of_word hupper hread
    rw [hskip] at hstart
    have hname := name_misses_of_keyword hreserved hread
    rw [hskip] at hname
    refine leading_of_literal hskip
      (keyword_misses_of_keyword hupper (by decide) ?_ hread)
      (keyword_misses_of_keyword hupper (by decide) ?_ hread) hname
      (head?_ne_of_wordStart hstart (by decide)) (head?_ne_of_wordStart hstart (by decide)) h <;>
    · rintro rfl
      exact absurd hmem (by decide)

theorem leading_of_identifier {below : Option Below} (h : identifier (skipSpacing s) = .ok node rest)
    (hrest : Misses (symbol "(") rest) : leading limit below s = .ok node rest := by
  obtain ⟨names, _, hnames, hnode⟩ := bind_eq_ok.mp h
  obtain ⟨-, rfl⟩ := pure_eq_ok.mp hnode
  rw [← leading_skipSpacing]
  rcases cases_of_parts hnames with ⟨t, ht⟩ | ⟨w, after, hname, hafter⟩
  · rw [skipSpacing_skipSpacing] at ht
    rw [ht] at h ⊢
    exact leading_of_bracket h
  · rw [skipSpacing_skipSpacing] at hname
    obtain ⟨hs, hw, hword⟩ := name_eq_ok.mp hname
    have hparen : Misses (symbol "(") after := by
      rcases hafter with rfl | hpoint
      · exact hrest
      · obtain ⟨t, rfl⟩ : ∃ t, after = '.' :: t := by
          cases after <;> simp_all
        exact symbol_misses_of_head? (c := '(') rfl
          (by rw [skipSpacing_cons (by decide) (by decide)]; simp)
    rw [hs] at h ⊢
    exact leading_of_name hw hword hparen h

/-- Nothing that is closed before it begins is an argument. -/
theorem argument_misses_of_close (hclose : symbol ")" s = .ok () rest) :
    Misses (argument ⟨operand limit b, chain limit b⟩) s := by
  have hs : skipSpacing s = ')' :: rest := symbol_eq_ok.mp hclose
  have hoperand : operand limit b loosest (skipSpacing s) = operand limit b loosest s := by
    rw [operand_eq, operandOf, bind_apply, bind_apply, leading_skipSpacing]
  refine orElse_misses.mpr ⟨seqRight_misses.mpr (.inl
    (symbol_misses_of_head? (c := '*') rfl (by rw [hs]; simp))), ?_⟩
  change Misses (operand limit b loosest) s
  rw [Misses, ← hoperand, hs]
  exact operand_misses_close limit b loosest rest

/-! ### What may follow a clause -/

/-- Nothing is left of a statement, or one of some clauses comes next. -/
def EndsBefore (words : List String) (s : List Char) : Prop :=
  skipSpacing s = [] ∨ (∃ t, symbol ";" s = .ok () t) ∨ ∃ word ∈ words, ∃ t, keyword word s = .ok () t

variable {words : List String}

/-- The words that begin the clauses of a `SELECT` after its list, and the one that follows it. -/
def clauseWords : List String :=
  ["FROM", "WHERE", "GROUP", "HAVING", "ORDER", "PIVOT"]

theorem isUpper_of_mem_clauseWords (h : word ∈ clauseWords) :
    word.toList ≠ [] ∧ word.toList.all Char.isUpper = true :=
  (by decide : ∀ word ∈ clauseWords, word.toList ≠ [] ∧ word.toList.all Char.isUpper = true) word h

theorem EndsBefore.mono {words' : List String} (h : EndsBefore words s) (hsub : words ⊆ words') :
    EndsBefore words' s := by
  rcases h with hnil | hmark | ⟨word, hword, t, ht⟩
  · exact .inl hnil
  · exact .inr (.inl hmark)
  · exact .inr (.inr ⟨word, hsub hword, t, ht⟩)

/-- No other keyword comes where one of the clauses does. -/
theorem EndsBefore.keyword_misses (h : EndsBefore words s) (hwords : words ⊆ clauseWords)
    (hsteady : word.toList ≠ [] ∧ isSteady word = true) (hword : word ∉ words) :
    Misses (keyword word) s := by
  have hupper : word.toList ≠ [] ∧ word.toList.all Char.isUpper = true :=
    ⟨hsteady.1, all_isUpper_of_isSteady hsteady.2⟩
  rcases h with hnil | ⟨t, ht⟩ | ⟨other, hother, t, ht⟩
  · exact keyword_misses_of_no_word hupper (by rw [hnil]; rfl)
  · exact keyword_misses_of_no_word hupper (by rw [symbol_eq_ok.mp ht]; rfl)
  · refine keyword_misses_of_keyword (isUpper_of_mem_clauseWords (hwords hother)) hsteady.2 ?_ ht
    rintro rfl
    exact hword hother

theorem EndsBefore.misses_comma (h : EndsBefore words s) (hwords : words ⊆ clauseWords) :
    Misses (symbol ",") s := by
  refine symbol_misses_of_head? (c := ',') rfl fun hhead => ?_
  rcases h with hnil | ⟨t, ht⟩ | ⟨word, hword, t, ht⟩
  · rw [hnil] at hhead
    cases hhead
  · rw [symbol_eq_ok.mp ht] at hhead
    cases hhead
  · have hstart := head?_of_word (isUpper_of_mem_clauseWords (hwords hword)) ht
    rw [hhead] at hstart
    exact absurd hstart (by decide)

theorem EndsBefore.bounded (h : EndsBefore words s) (hwords : words ⊆ clauseWords) : Bounded s := by
  rcases h with hnil | ⟨t, ht⟩ | ⟨word, hword, t, ht⟩
  · refine bounded_of_head? (unbroken_of_no_word (by rw [hnil]; rfl)) fun c hc => ?_
    rw [hnil] at hc
    cases hc
  · exact bounded_of_symbol (by decide) ht
  · have hnot := (by decide : ∀ word ∈ clauseWords, word ≠ "NOT") word (hwords hword)
    exact bounded_of_keyword ⟨isUpper_of_mem_clauseWords (hwords hword), hnot⟩ ht

end JetSql.Grammar
