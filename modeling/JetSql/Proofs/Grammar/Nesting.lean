/-
The scan of a text keeps step with the reading of it.

`Scans awaited b s rest` says that the scan, where it awaits a delimiter or none, comes from `s` to
`rest` with none awaited and as many parentheses open as before, and that on the way it meets no more
than `b` further ones nested. Stretches that follow one another are scanned one after another, so it
is enough to look at tokens and to add one for a pair of parentheses.

Scan and reader part where a comment meets a carriage return that ends no line: it is a comment for
the scan and two minus signs for the reader. `CommentsEndWell` says that the scan meets no such
comment.

* **`nestingDepth_le_of_read`:** a text of which this holds and that is read at a limit nests less
  deeply than the limit.
-/

import JetSql.Proofs.Grammar.Derivation
import JetSql.Proofs.Grammar.Leaf

namespace JetSql.Grammar

open Reader

/-- Whether every comment that the scan meets is a comment for the reader. -/
def commentsEndWell (awaited : Option Char) : List Char → Bool
  | [] => true
  | c :: rest =>
    match awaited with
    | some delimiter => commentsEndWell (if c = delimiter then none else some delimiter) rest
    | none =>
      (!(c == '-' && rest.head? == some '-') || opensComment rest) &&
        commentsEndWell (closingDelimiter c rest) rest

/-- Every comment of a text ends with its line or with the text, and no line with a carriage return
alone. -/
def CommentsEndWell (source : List Char) : Prop :=
  commentsEndWell none source = true

/-- The scan comes from one text to a later one, at most `b` parentheses deeper in between. It does
so if no minus sign that is an operator stands before another one, which is what `apart` says, or if
the comments of the text end well. -/
def Scans (apart : Prop) (awaited : Option Char) (b : Nat) (s rest : List Char) : Prop :=
  apart ∨ commentsEndWell awaited s = true →
    (apart ∨ commentsEndWell none rest = true) ∧
      ∀ level deepest, ∃ deepest' ≤ max deepest (level + b),
        deepestFrom awaited level deepest s = deepestFrom none level deepest' rest

variable {apart : Prop} {b : Nat} {s middle rest : List Char} {awaited : Option Char}
  {c delimiter : Char}

/-! ### One stretch after another -/

theorem scans_refl (b : Nat) (s : List Char) : Scans apart none b s s :=
  fun hwell => ⟨hwell, fun _ deepest => ⟨deepest, Nat.le_max_left .., rfl⟩⟩

theorem Scans.trans (hfirst : Scans apart awaited b s middle)
    (hsecond : Scans apart none b middle rest) :
    Scans apart awaited b s rest := by
  intro hwell
  obtain ⟨hwell, hfirst⟩ := hfirst hwell
  obtain ⟨hwell, hsecond⟩ := hsecond hwell
  refine ⟨hwell, fun level deepest => ?_⟩
  obtain ⟨deepest₁, hle₁, heq₁⟩ := hfirst level deepest
  obtain ⟨deepest₂, hle₂, heq₂⟩ := hsecond level deepest₁
  exact ⟨deepest₂, by omega, heq₁.trans heq₂⟩

theorem Scans.mono {b' : Nat} (h : Scans apart awaited b s rest) (hle : b ≤ b') :
    Scans apart awaited b' s rest := by
  intro hwell
  obtain ⟨hwell, h⟩ := h hwell
  refine ⟨hwell, fun level deepest => ?_⟩
  obtain ⟨deepest', hle', heq⟩ := h level deepest
  exact ⟨deepest', by omega, heq⟩

/-! ### Characters -/

/-- A character that the scan does not stop at. -/
def isPlain (c : Char) : Bool :=
  c != '\'' && c != '"' && c != '#' && c != '[' && c != '-' && c != '(' && c != ')'

theorem isPlain_of_class {p : Char → Bool} (hp : ("'\"#[-()".toList.all fun d => !p d) = true)
    (h : p c = true) : isPlain c = true := by
  have hne (d : Char) (hd : d ∈ "'\"#[-()".toList) : c ≠ d := by
    rintro rfl
    simpa [h] using List.all_eq_true.mp hp c hd
  simp [isPlain, hne '\'' (by decide), hne '"' (by decide), hne '#' (by decide),
    hne '[' (by decide), hne '-' (by decide), hne '(' (by decide), hne ')' (by decide)]

/-- Outside literals the scan passes over a plain character. -/
theorem scans_plain (h : isPlain c = true) (b : Nat) (rest : List Char) :
    Scans apart none b (c :: rest) rest := by
  simp only [isPlain, Bool.and_eq_true, bne_iff_ne] at h
  obtain ⟨⟨⟨⟨⟨⟨hquote, hdouble⟩, hnumber⟩, hbracket⟩, hminus⟩, hopen⟩, hclose⟩ := h
  have hdelimiter : closingDelimiter c rest = none := by
    simp [closingDelimiter, hquote, hdouble, hnumber, hbracket, hminus]
  intro hwell
  refine ⟨?_, fun level deepest => ⟨deepest, Nat.le_max_left .., ?_⟩⟩
  · exact hwell.imp_right fun hwell => by simpa [commentsEndWell, hminus, hdelimiter] using hwell
  · simp [deepestFrom, hopen, hclose, hdelimiter]

/-- Where a delimiter is awaited, the scan passes over every other character. -/
theorem Scans.awaiting (h : Scans apart (some delimiter) b s rest) (hc : c ≠ delimiter) :
    Scans apart (some delimiter) b (c :: s) rest := by
  intro hwell
  simpa [deepestFrom, hc] using h (hwell.imp_right fun hwell => by
    simpa [commentsEndWell, hc] using hwell)

theorem Scans.found (h : Scans apart none b s rest) :
    Scans apart (some delimiter) b (delimiter :: s) rest := by
  intro hwell
  simpa [deepestFrom] using h (hwell.imp_right fun hwell => by
    simpa [commentsEndWell] using hwell)

/-- An opening character is passed over if the scan comes to the end of what it opens. -/
theorem Scans.opening (h : Scans apart (some delimiter) b s rest)
    (hdelimiter : closingDelimiter c s = some delimiter) (hc : c ≠ '(' ∧ c ≠ ')') :
    Scans apart none b (c :: s) rest := by
  intro hwell
  simp only [commentsEndWell, hdelimiter, Bool.and_eq_true] at hwell
  simpa [deepestFrom, hc.1, hc.2, hdelimiter] using h (hwell.imp_right And.right)

/-- A pair of parentheses is one level deeper than what stands in it. -/
theorem Scans.parentheses (h : Scans apart none b s (')' :: rest)) :
    Scans apart none (b + 1) ('(' :: s) rest := by
  intro hwell
  obtain ⟨hwell, h⟩ := h (hwell.imp_right fun hwell => by
    simpa [commentsEndWell, closingDelimiter] using hwell)
  refine ⟨hwell.imp_right fun hwell => by
    simpa [commentsEndWell, closingDelimiter] using hwell, fun level deepest => ?_⟩
  obtain ⟨deepest', hle, heq⟩ := h (level + 1) (max deepest (level + 1))
  exact ⟨deepest', by omega, by simpa [deepestFrom] using heq⟩

/-! ### Spacing -/

/-- A line feed is passed over with a line feed awaited as it is without. -/
theorem Scans.lineFeed (h : Scans apart none b ('\n' :: s) rest) :
    Scans apart (some '\n') b ('\n' :: s) rest := by
  refine Scans.found fun hwell => ?_
  simpa [deepestFrom, closingDelimiter] using h (hwell.imp_right fun hwell => by
    simpa [commentsEndWell, closingDelimiter] using hwell)

/-- The scan and the reader come to the same place behind spacing. -/
theorem scans_skip (apart : Prop) (b : Nat) (inComment : Bool)
    (hline : inComment = true → lineEndsWell s = true) :
    Scans apart (if inComment then some '\n' else none) b s (skip inComment s) := by
  fun_induction skip inComment s with
  | case1 inComment =>
    intro _
    refine ⟨.inr rfl, fun level deepest => ⟨deepest, Nat.le_max_left .., ?_⟩⟩
    cases inComment <;> rfl
  | case2 c rest ih =>
    have hline := hline rfl
    by_cases hfeed : c = '\n'
    · subst hfeed
      exact Scans.found (ih (by simp))
    by_cases hreturn : c = '\r'
    · subst hreturn
      have hhead : rest.head? = some '\n' := by simpa [lineEndsWell] using hline
      obtain ⟨rest, rfl⟩ : ∃ more, rest = '\n' :: more := by
        cases rest <;> simp_all
      exact ((ih (by simp)).lineFeed).awaiting (by decide)
    · have hmore : lineEndsWell rest = true := by simpa [lineEndsWell, hfeed, hreturn] using hline
      simp only [show (c != '\n' && c != '\r') = true by simp [hfeed, hreturn], if_true] at ih ⊢
      exact (ih fun _ => hmore).awaiting hfeed
  | case3 inComment c rest hcomment hspacing ih =>
    rw [if_neg hcomment]
    exact (scans_plain (isPlain_of_class (by decide) hspacing) b rest).trans (ih (by simp))
  | case4 inComment c rest hcomment hspacing hopens ih =>
    rw [if_neg hcomment]
    simp only [Bool.and_eq_true, decide_eq_true_eq] at hopens
    obtain ⟨rfl, hopens⟩ := hopens
    cases rest with
    | nil => cases hopens
    | cons d rest =>
      simp only [opensComment, Bool.and_eq_true, beq_iff_eq] at hopens
      obtain ⟨rfl, hmore⟩ := hopens
      have hmore : lineEndsWell ('-' :: rest) = true := by simpa [lineEndsWell] using hmore
      exact (ih fun _ => hmore).opening (by simp [closingDelimiter]) (by decide)
  | case5 inComment c rest hcomment hspacing hopens =>
    rw [if_neg hcomment]
    exact scans_refl b _

theorem scans_skipSpacing (apart : Prop) (b : Nat) (s : List Char) :
    Scans apart none b s (skipSpacing s) :=
  scans_skip apart b false (by simp)

/-- A minus sign that is left after spacing opens no comment. -/
theorem opensComment_eq_false (h : skipSpacing s = '-' :: rest) : opensComment rest = false := by
  have hagain : skipSpacing ('-' :: rest) = '-' :: rest := by rw [← h, skipSpacing_skipSpacing]
  rw [← Bool.not_eq_true]
  intro hopens
  have hskip : skip true rest = '-' :: rest := by
    simpa [skipSpacing, skip, isSpacing, hopens] using hagain
  have := length_skip_le true rest
  rw [hskip, List.length_cons] at this
  omega

/-- A minus sign that the reader comes to is passed over. -/
theorem scans_minus (b : Nat) (h : skipSpacing s = '-' :: rest)
    (hapart : apart → rest.head? ≠ some '-') : Scans apart none b s rest := by
  have hskip := scans_skipSpacing apart b s
  rw [h] at hskip
  refine hskip.trans fun hwell => ?_
  have hhead : rest.head? ≠ some '-' := by
    rcases hwell with happly | hwell
    · exact hapart happly
    · simp only [commentsEndWell, opensComment_eq_false h] at hwell
      intro hhead
      simp [hhead] at hwell
  have hdelimiter : closingDelimiter '-' rest = none := by simp [closingDelimiter, hhead]
  refine ⟨hwell.imp_right fun hwell => ?_, fun level deepest =>
    ⟨deepest, Nat.le_max_left .., by simp [deepestFrom, hdelimiter]⟩⟩
  simp only [commentsEndWell, hdelimiter, Bool.and_eq_true] at hwell
  exact hwell.2

/-! ### Tokens -/

/-- A reader that reads no parenthesis, but for those inside literals. -/
def Reader.Flat {α : Type} (reader : Reader α) : Prop :=
  ∀ ⦃apart : Prop⦄ b s value rest, reader s = .ok value rest → Scans apart none b s rest

section Flat

variable {α β : Type} {reader : Reader α} {next : α → Reader β}

theorem flat_pure (value : α) : Flat (pure value) := by
  intro apart b s _ rest h
  obtain ⟨-, rfl⟩ := pure_eq_ok.mp h
  exact scans_refl b s

theorem Reader.Flat.bind (hreader : reader.Flat) (hnext : ∀ value, (next value).Flat) :
    Flat (reader >>= next) := by
  intro apart b s value rest h
  obtain ⟨first, middle, hfirst, h⟩ := bind_eq_ok.mp h
  exact (hreader b s first middle hfirst).trans (hnext first b middle value rest h)

theorem Reader.Flat.seqRight {second : Reader β} (hreader : reader.Flat) (hsecond : second.Flat) :
    Flat (reader *> second) := by
  rw [seqRight_eq_bind]
  exact hreader.bind fun _ => hsecond

theorem Reader.Flat.orElse {second : Reader α} (hreader : reader.Flat) (hsecond : second.Flat) :
    Flat (reader <|> second) := by
  intro apart b s value rest h
  rcases orElse_eq_ok.mp h with h | ⟨-, h⟩
  · exact hreader b s value rest h
  · exact hsecond b s value rest h

theorem Reader.Flat.optional (hreader : reader.Flat) : Flat (Reader.optional reader) := by
  intro apart b s value rest h
  cases value with
  | none =>
    obtain ⟨-, rfl⟩ := optional_eq_none.mp h
    exact scans_refl b s
  | some value => exact hreader b s value rest (optional_eq_some.mp h)

theorem Reader.Flat.satisfying {test : α → Bool} (hreader : reader.Flat) :
    Flat (Reader.satisfying reader test) :=
  fun _ b s value rest h => hreader b s value rest (satisfying_eq_ok.mp h).1

theorem scans_text {text : List Char} (h : text.all isPlain = true) (b : Nat) (rest : List Char) :
    Scans apart none b (text ++ rest) rest := by
  induction text with
  | nil => exact scans_refl b rest
  | cons c text ih =>
    rw [List.all_cons, Bool.and_eq_true] at h
    exact (scans_plain h.1 b _).trans (ih h.2)

theorem flat_spacing : Flat spacing := by
  intro apart b s value rest h
  obtain rfl := spacing_eq_ok.mp h
  exact scans_skipSpacing apart b s

theorem flat_symbol {mark : String} (hmark : mark.toList.all isPlain = true) : Flat (symbol mark) := by
  intro apart b s value rest h
  have hskip := scans_skipSpacing apart b s
  rw [symbol_eq_ok.mp h] at hskip
  exact hskip.trans (scans_text hmark b rest)

theorem flat_char (h : isPlain c = true) : Flat (Reader.char c) := by
  intro apart b s value rest hs
  obtain rfl := char_eq_ok.mp hs
  exact scans_plain h b rest

theorem flat_run1 {p : Char → Bool} (hp : ("'\"#[-()".toList.all fun d => !p d) = true) :
    Flat (run1 p) := by
  intro apart b s value rest h
  obtain ⟨⟨rfl, hall, -⟩, -⟩ := run1_eq_ok.mp h
  exact scans_text (List.all_eq_true.mpr fun c hc =>
    isPlain_of_class hp (List.all_eq_true.mp hall c hc)) b rest

theorem flat_keyword (word : String) (hword : word.toList.all Char.isUpper = true) :
    Flat (keyword word) := by
  intro apart b s value rest h
  obtain ⟨⟨written, hs, hwritten⟩, -⟩ := keyword_eq_ok.mp h
  have hskip := scans_skipSpacing apart b s
  rw [hs] at hskip
  refine hskip.trans (scans_text (List.all_eq_true.mpr fun c hc => ?_) b rest)
  rw [← hwritten, List.all_map] at hword
  exact isPlain_of_class (p := fun c => c.toUpper.isUpper) (by decide) (List.all_eq_true.mp hword c hc)

theorem Reader.Flat.separated1 {separator : Reader Unit} (hseparator : separator.Flat)
    (hreader : reader.Flat) : Flat (separated1 separator reader) := by
  intro apart b s values rest h
  have hlisted := listed_of_separated1 h
  clear h
  induction hlisted with
  | last hitem => exact hreader b _ _ _ hitem
  | cons hitem hsep _ ih =>
    exact (hreader b _ _ _ hitem).trans ((hseparator b _ _ _ hsep).trans ih)

/-- A string literal is passed over up to the quote that closes it. -/
theorem scans_paired {quote : Char} {body : List Char} (hquote : quote = '\'' ∨ quote = '"')
    (hbody : Text.paired quote body = true) (b : Nat) (rest : List Char) :
    Scans apart (some quote) b (body ++ quote :: rest) rest := by
  have hopening (s : List Char) : closingDelimiter quote s = some quote := by
    rcases hquote with rfl | rfl <;> rfl
  have hparen : quote ≠ '(' ∧ quote ≠ ')' := by
    rcases hquote with rfl | rfl <;> decide
  fun_induction Text.paired quote body with
  | case1 => exact (scans_refl b rest).found
  | case2 c => exact (scans_refl b rest).found.awaiting (by simpa using hbody)
  | case3 d body ih =>
    simp only [Bool.and_eq_true, beq_iff_eq] at hbody
    obtain ⟨rfl, hbody⟩ := hbody
    exact ((ih hbody).opening (hopening _) hparen).found
  | case4 c d body hc ih => exact (ih hbody).awaiting hc

theorem flat_stringLiteral {quote : Char} (hquote : quote = '\'' ∨ quote = '"') :
    Flat (stringLiteral quote) := by
  intro apart b s value rest h
  obtain ⟨body, -, rfl, hpaired, -⟩ := stringLiteral_eq_ok.mp h
  refine (scans_paired hquote hpaired b rest).opening ?_ ?_
  · rcases hquote with rfl | rfl <;> rfl
  · rcases hquote with rfl | rfl <;> decide

/-- What a delimiter closes that it does not hold is passed over. -/
theorem scans_inside {body : List Char} (hbody : delimiter ∉ body) (b : Nat) (rest : List Char) :
    Scans apart (some delimiter) b (body ++ delimiter :: rest) rest := by
  induction body with
  | nil => exact (scans_refl b rest).found
  | cons c body ih =>
    rw [List.mem_cons, not_or] at hbody
    exact (ih hbody.2).awaiting (Ne.symm hbody.1)

theorem flat_dateLiteral : Flat dateLiteral := by
  intro apart b s value rest h
  obtain ⟨body, -, rfl, hall, -⟩ := dateLiteral_eq_ok.mp h
  refine (scans_inside (fun hmem => ?_) b rest).opening rfl (by decide)
  exact absurd (List.all_eq_true.mp hall _ hmem) (by decide)

theorem flat_bracketedName : Flat bracketedName := by
  intro apart b s w rest h
  obtain ⟨rfl, hall, -⟩ := bracketedName_eq_ok.mp h
  refine (scans_inside (fun hmem => ?_) b rest).opening rfl (by decide)
  exact absurd (List.all_eq_true.mp hall _ hmem) (by decide)

theorem flat_name : Flat name := by
  intro apart b s w rest h
  obtain ⟨rfl, hw, -⟩ := name_eq_ok.mp h
  obtain ⟨c, cs, hcs, hc, hall⟩ := Text.exists_of_isWord hw.1
  rw [hcs]
  refine scans_text (List.all_eq_true.mpr fun d hd => ?_) b rest
  rcases List.mem_cons.mp hd with rfl | hd
  · exact isPlain_of_class (p := Text.isWordStart) (by decide) hc
  · exact isPlain_of_class (p := Text.isWordChar) (by decide) (List.all_eq_true.mp hall d hd)

theorem flat_part : Flat part :=
  flat_spacing.bind fun _ =>
    (flat_bracketedName.bind fun _ => flat_pure _).orElse (flat_name.bind fun _ => flat_pure _)

theorem flat_parts : Flat parts :=
  flat_spacing.bind fun _ => Reader.Flat.separated1 (flat_char (by decide)) flat_part

theorem flat_identifier : Flat identifier :=
  flat_parts.bind fun _ => flat_pure _

theorem flat_numberLiteral : Flat numberLiteral :=
  (flat_run1 (by decide)).bind fun _ =>
    ((flat_char (by decide)).seqRight (flat_run1 (by decide))).optional.bind fun _ => flat_pure _

theorem flat_literal : Flat literal :=
  flat_spacing.bind fun _ => Reader.Flat.bind
    ((flat_stringLiteral (.inl rfl)).orElse <| (flat_stringLiteral (.inr rfl)).orElse <|
      flat_dateLiteral.orElse <| flat_numberLiteral.orElse <|
        ((flat_keyword _ (by decide)).seqRight (flat_pure _)).orElse <|
          ((flat_keyword _ (by decide)).seqRight (flat_pure _)).orElse <|
            (flat_keyword _ (by decide)).seqRight (flat_pure _))
    fun _ => flat_pure _

theorem flat_rowCount : Flat rowCount :=
  flat_spacing.bind fun _ => (flat_run1 (by decide)).satisfying.bind fun _ => flat_pure _

/-- The operator of a link is passed over. -/
theorem scans_link {link : Link} (b : Nat) (h : Link.read? s = some (link, rest))
    (hapart : apart → link = .arithmetic .sub → opensComment rest = false → rest.head? ≠ some '-') :
    Scans apart none b s rest := by
  have hflat : ∀ reader ∈ Link.readers,
      Flat reader ∨ reader = symbol "-" *> pure (.arithmetic .sub) := by
    have hkeyword {word : String} (hword : word.toList.all Char.isUpper = true) (link : Link) :=
      (flat_keyword _ hword).seqRight (flat_pure link)
    have hsymbol {mark : String} (hmark : mark.toList.all isPlain = true) (link : Link) :=
      (flat_symbol hmark).seqRight (flat_pure link)
    have hwords (first second : String) (hfirst : first.toList.all Char.isUpper = true)
        (hsecond : second.toList.all Char.isUpper = true) :=
      (flat_keyword _ hfirst).seqRight (flat_keyword _ hsecond)
    have hisNotNull := (hwords "IS" "NOT" (by decide) (by decide)).seqRight
      (flat_keyword "NULL" (by decide))
    simp only [Link.readers, List.forall_mem_cons, List.not_mem_nil, false_imp_iff, implies_true,
      and_true]
    refine ⟨?_, ?_, ?_, ?_, ?_, ?_, ?_, ?_, ?_, ?_, ?_, .inl (hisNotNull.seqRight (flat_pure _)),
      ?_, ?_, ?_, ?_, ?_, ?_, ?_, .inr trivial, ?_, ?_, ?_, ?_⟩
    all_goals
      first
      | exact .inl (hkeyword (by decide) _)
      | exact .inl (hsymbol (by decide) _)
      | exact .inl ((hwords _ _ (by decide) (by decide)).seqRight (flat_pure _))
  obtain ⟨reader, hmem, hread⟩ := exists_of_firstOf_eq_some h
  rcases hflat reader hmem with hflat | rfl
  · exact hflat b s link rest hread
  · obtain ⟨_, middle, hminus, hlink⟩ := seqRight_eq_ok.mp hread
    obtain ⟨rfl, rfl⟩ := pure_eq_ok.mp hlink
    have hminus := symbol_eq_ok.mp hminus
    exact scans_minus b hminus fun happly => hapart happly rfl (opensComment_eq_false hminus)

/-- The words of a join are passed over. -/
theorem scans_join {kind : JoinKind} (b : Nat) (h : readJoin? s = some (kind, rest)) :
    Scans apart none b s rest := by
  have hflat : ∀ reader ∈ joinReaders, Flat reader := by
    have hjoin {γ : Type} {side : Reader γ} (hside : side.Flat) (kind : JoinKind) :=
      (hside.seqRight (flat_keyword "JOIN" (by decide))).seqRight (flat_pure kind)
    have houter (word : String) (hword : word.toList.all Char.isUpper = true) :=
      (flat_keyword _ hword).seqRight (flat_keyword "OUTER" (by decide)).optional
    simp only [joinReaders, List.forall_mem_cons, List.not_mem_nil, false_imp_iff, implies_true,
      and_true]
    exact ⟨hjoin (flat_keyword _ (by decide)) _, hjoin (houter "LEFT" (by decide)) _,
      hjoin (houter "RIGHT" (by decide)) _⟩
  obtain ⟨reader, hmem, hread⟩ := exists_of_firstOf_eq_some h
  exact hflat reader hmem b s kind rest hread

end Flat

/-! ### Phrases -/

/-- Parentheses around what the scan passes over are passed over, one level deeper. -/
theorem Scans.enclosed {start stop : List Char} (h : Scans apart none b start stop)
    (hopen : skipSpacing s = '(' :: start) (hclose : symbol ")" stop = .ok () rest) :
    Scans apart none (b + 1) s rest := by
  have hskip := scans_skipSpacing apart (b + 1) s
  rw [hopen] at hskip
  have hstop := scans_skipSpacing apart b stop
  rw [symbol_eq_ok.mp hclose] at hstop
  exact hskip.trans (h.trans hstop).parentheses

section Lists

variable {item : List Char → Node → List Char → Prop} {nodes : List Node} {opening : Reader Unit}

theorem Listed.scans (h : Listed (symbol ",") item s nodes rest)
    (hitem : ∀ s node rest, item s node rest → Scans apart none b s rest) :
    Scans apart none b s rest := by
  induction h with
  | last h => exact hitem _ _ _ h
  | cons h hsep _ ih =>
    exact (hitem _ _ _ h).trans ((flat_symbol (by decide) b _ _ _ hsep).trans ih)

theorem Clause.scans {clause : Option Node} (h : Clause opening item s clause rest)
    (hopening : opening.Flat) (hitem : ∀ s node rest, item s node rest → Scans apart none b s rest) :
    Scans apart none b s rest := by
  cases h with
  | absent => exact scans_refl b s
  | present hopens h => exact (hopening b _ _ _ hopens).trans (hitem _ _ _ h)

theorem ListClause.scans (h : ListClause opening item s nodes rest)
    (hopening : opening.Flat) (hitem : ∀ s node rest, item s node rest → Scans apart none b s rest) :
    Scans apart none b s rest := by
  cases h with
  | absent => exact scans_refl b s
  | present hopens h => exact (hopening b _ _ _ hopens).trans (h.scans hitem)

end Lists

/-! ### Minus signs that stand apart -/

theorem skipSpacing_eq_of_opensComment (hopens : opensComment ('-' :: s) = false) :
    skipSpacing ('-' :: s) = '-' :: s := by
  have hrest : opensComment s = false := by
    cases s with
    | nil => rfl
    | cons c s =>
      by_cases hc : c = '-'
      · simpa [opensComment, lineEndsWell, hc] using hopens
      · simp [opensComment, hc]
  simp [skipSpacing, skip, isSpacing, hrest]

theorem literal_ne_ok_of_minus {node : Node} (hskip : skipSpacing s = '-' :: middle) :
    literal s ≠ .ok node rest := by
  intro h
  simp only [literal, bind_eq_ok, spacing_eq_ok, hskip, orElse_eq_ok, seqRight_eq_ok] at h
  obtain ⟨⟨⟩, _, rfl, value, _, hvalue, -⟩ := h
  have hkeyword {word : String} {t : List Char} (hword : word.toList.head?.any Char.isUpper = true) :
      keyword word ('-' :: middle) ≠ .ok () t := by
    intro h
    have hhead := head?_of_keyword h (by rintro hnil; simp [hnil] at hword)
    rw [← hskip, skipSpacing_skipSpacing, hskip] at hhead
    rw [← hhead] at hword
    change Char.isUpper (Char.toUpper '-') = true at hword
    exact absurd hword (by decide)
  rcases hvalue with h | ⟨-, h | ⟨-, h | ⟨-, h | ⟨-, h | ⟨-, h | ⟨-, h⟩⟩⟩⟩⟩⟩
  · obtain ⟨body, -, ⟨⟩, -⟩ := stringLiteral_eq_ok.mp h
  · obtain ⟨body, -, ⟨⟩, -⟩ := stringLiteral_eq_ok.mp h
  · obtain ⟨body, -, ⟨⟩, -⟩ := dateLiteral_eq_ok.mp h
  · obtain ⟨digits, _, hdigits, -⟩ := bind_eq_ok.mp h
    obtain ⟨⟨hs, hall, -⟩, hne⟩ := run1_eq_ok.mp hdigits
    obtain ⟨c, cs, rfl⟩ := List.exists_cons_of_ne_nil hne
    cases hs
    rw [List.all_cons, Bool.and_eq_true] at hall
    exact absurd hall.1 (by decide)
  all_goals
    obtain ⟨⟨⟩, _, h, -⟩ := h
    exact absurd h (hkeyword (by decide))

theorem identifier_ne_ok_of_minus {node : Node} (hskip : skipSpacing s = '-' :: middle) :
    Grammar.identifier s ≠ .ok node rest := by
  intro h
  obtain ⟨names, _, hnames, -⟩ := bind_eq_ok.mp h
  obtain ⟨⟨⟩, start, hstart, hlist⟩ := bind_eq_ok.mp hnames
  obtain ⟨p, _, hpart, -⟩ := bind_eq_ok.mp hlist
  obtain ⟨hp, hformed, -⟩ := part_eq_ok.mp hpart
  rw [← spacing_eq_ok.mp hstart, skipSpacing_skipSpacing, hskip] at hp
  obtain ⟨w, _ | _⟩ := p
  · have hhead := congrArg List.head? hp
    exact hformed.head?_ne (by decide) _ hhead.symm
  · cases hp

/-- Where no level is left, no operand begins with a minus sign. -/
theorem head?_ne_minus_of_derives {least : Nat} {node : Node}
    (h : Derives (.operand least) 0 s node rest) (hopens : opensComment s = false) :
    s.head? ≠ some '-' := by
  intro hhead
  obtain ⟨t, rfl⟩ : ∃ t, s = '-' :: t := by
    cases s <;> simp_all
  have hskip := skipSpacing_eq_of_opensComment hopens
  have hagain : skipSpacing (skipSpacing ('-' :: t)) = '-' :: t := by
    rw [skipSpacing_skipSpacing, hskip]
  cases h with
  | operand hleading _ =>
    cases hleading with
    | literal h => exact literal_ne_ok_of_minus hagain h
    | identifier h => exact identifier_ne_ok_of_minus hagain h

/-! ### Whole phrases -/

/-- The parentheses that may nest in a phrase under a budget. A link stands one level above the
operands that complete it. -/
def Phrase.room : Phrase → Nat → Nat
  | .complete .., b => b + 1
  | _, b => b

/-- **The scan keeps step with every phrase, and counts no more parentheses in it than the phrase
spends levels.** A budget of one does not let a minus sign stand before another one. -/
theorem scans_of_derives {phrase : Phrase} {node : Node} (h : Derives phrase b s node rest)
    (hone : apart → b ≤ 1) : Scans apart none (phrase.room b) s rest := by
  have hskip (b : Nat) (s : List Char) : Scans apart none b s (skipSpacing s) :=
    scans_skipSpacing apart b s
  have hkeyword {word : String} (hword : word.toList.all Char.isUpper = true) {b : Nat}
      {s rest : List Char} (h : keyword word s = .ok () rest) : Scans apart none b s rest :=
    flat_keyword word hword b s () rest h
  have hdown {b : Nat} (h : apart → b + 1 ≤ 1) : apart → b ≤ 1 := fun happly => by
    have := h happly
    omega
  have hzero {b : Nat} (h : apart → b + 1 ≤ 1) (happly : apart) : b = 0 := by
    have := h happly
    omega
  induction h with
  | operand _ _ ihleading ihchain => exact (ihleading hone).trans (ihchain hone)
  | not hnot _ ih =>
    exact (hskip _ _).trans ((hkeyword (by decide) hnot).trans
      ((ih (hdown hone)).mono (Nat.le_succ _)))
  | negate hminus hexpr ih =>
    refine (scans_minus _ hminus fun happly => ?_).trans ((ih (hdown hone)).mono (Nat.le_succ _))
    obtain rfl := hzero hone happly
    exact head?_ne_minus_of_derives hexpr (opensComment_eq_false hminus)
  | grouped hopen _ hclose ih => exact (ih (hdown hone)).enclosed hopen hclose
  | conditional hiif hopen hargs _ hclose ih =>
    exact (hskip _ _).trans ((hkeyword (by decide) hiif).trans
      ((hargs.scans fun s node rest h => ih s node rest h (hdown hone)).enclosed
        (symbol_eq_ok.mp hopen) hclose))
  | @callEmpty b _ _ start _ _ hname hopen hclose =>
    exact (hskip _ _).trans ((flat_name _ _ _ _ hname).trans
      ((scans_refl b start).enclosed (symbol_eq_ok.mp hopen) hclose))
  | call hname hopen hargs _ hclose ih =>
    exact (hskip _ _).trans ((flat_name _ _ _ _ hname).trans
      ((hargs.scans fun s node rest h => ih s node rest h (hdown hone)).enclosed
        (symbol_eq_ok.mp hopen) hclose))
  | literal h => exact (hskip _ _).trans (flat_literal _ _ _ _ h)
  | identifier h => exact (hskip _ _).trans (flat_identifier _ _ _ _ h)
  | star h => exact flat_symbol (by decide) _ _ _ _ h
  | argument _ ih => exact ih hone
  | chainStop _ => exact scans_refl _ _
  | chainLink hread _ hcomplete _ ihcomplete ihchain =>
    refine (scans_link _ hread fun happly hsub hopens => ?_).trans
      ((ihcomplete (hdown hone)).trans ((ihchain (hdown hone)).mono (Nat.le_succ _)))
    obtain rfl := hzero hone happly
    subst hsub
    cases hcomplete with
    | arithmetic hright => exact head?_ne_minus_of_derives hright hopens
  | logical _ ih | compare _ ih | arithmetic _ ih => exact (ih hone).mono (Nat.le_succ _)
  | isNull => exact scans_refl _ _
  | inList hopen hlist _ hclose ih =>
    have hitems := hlist.scans fun s node rest h => ih s node rest h hone
    exact hitems.enclosed (symbol_eq_ok.mp hopen) hclose
  | between _ hand _ ihlow ihhigh =>
    exact ((ihlow hone).trans ((hkeyword (by decide) hand).trans (ihhigh hone))).mono (Nat.le_succ _)
  | groupedTables hopen _ hclose ih =>
    exact (hskip _ _).trans ((ih (hdown hone)).enclosed (symbol_eq_ok.mp hopen) hclose)
  | tableRef htable halias =>
    have hflat : Flat (Reader.optional (Reader.optional (keyword "AS") *> tableAlias)) :=
      ((flat_keyword _ (by decide)).optional.seqRight flat_part.satisfying).optional
    exact (hskip _ _).trans ((flat_identifier _ _ _ _ htable).trans (hflat _ _ _ _ halias))
  | joinsStop _ => exact scans_refl _ _
  | join hread _ hon _ _ ihright ihon ihjoins =>
    exact (scans_join _ hread).trans (((ihright (hdown hone)).trans
      ((hkeyword (by decide) hon).trans ((ihon (hdown hone)).trans (ihjoins (hdown hone))))).mono
        (Nat.le_succ _))
  | tables _ _ ihfactor ihjoins => exact (ihfactor hone).trans (ihjoins hone)
  | itemStar h => exact (flat_symbol (by decide) _ _ _ _ h).trans (hskip _ _)
  | qualifiedStar hparts hstar =>
    rw [exactly_eq_ok] at hstar
    rw [hstar] at hparts
    exact (flat_parts _ _ _ _ hparts).trans (scans_text (by decide) _ _)
  | selectItem _ halias ih =>
    exact (ih hone).trans (((flat_keyword _ (by decide)).seqRight flat_part).optional _ _ _ _ halias)
  | orderItem _ horder ih =>
    have hflat : Flat ((keyword "ASC" *> pure SortOrder.asc) <|> (keyword "DESC" *> pure .desc)) :=
      ((flat_keyword _ (by decide)).seqRight (flat_pure _)).orElse
        ((flat_keyword _ (by decide)).seqRight (flat_pure _))
    exact (ih hone).trans (hflat.optional _ _ _ _ horder)
  | select hselect hdistinct _ htop hitems htables hcondition hgroups hhaving horders _ _ _ _ ihitems
      ihtables ihexprs ihorders =>
    have hword {word : String} (hword : word.toList.all Char.isUpper = true) := flat_keyword word hword
    have hexprs (s : List Char) (node : Node) (rest : List Char) := fun h => ihexprs s node rest h hone
    exact (hkeyword (by decide) hselect).trans <|
      ((hword (by decide)).optional _ _ _ _ hdistinct).trans <|
      (((hword (by decide)).seqRight flat_rowCount).optional _ _ _ _ htop).trans <|
      (hitems.scans fun s node rest h => ihitems s node rest h hone).trans <|
      (htables.scans (hword (by decide)) fun s node rest h => ihtables s node rest h hone).trans <|
      (hcondition.scans (hword (by decide)) hexprs).trans <|
      (hgroups.scans ((hword (by decide)).seqRight (hword (by decide))) hexprs).trans <|
      (hhaving.scans (hword (by decide)) hexprs).trans <|
      horders.scans ((hword (by decide)).seqRight (hword (by decide)))
        fun s node rest h => ihorders s node rest h hone
  | query _ ih => exact ih hone
  | crosstab htransform _ _ hpivot _ ihvalue ihselect ihpivot =>
    exact (hkeyword (by decide) htransform).trans (((ihvalue (hdown hone)).trans
      ((ihselect (hdown hone)).trans ((hkeyword (by decide) hpivot).trans
        (ihpivot (hdown hone))))).mono (Nat.le_succ _))
  | @statement b _ _ stop _ _ _ hmark hstop ih =>
    have hend := hskip b stop
    rw [hstop] at hend
    exact (ih hone).trans (((flat_symbol (by decide)).optional _ _ _ _ hmark).trans hend)

/-- **A text that is read at a limit nests less deeply than the limit, if the limit is two at most or
the comments of the text end well.** -/
theorem nestingDepth_le_of_read {limit : Nat} {node : Node}
    (hcomments : limit ≤ 2 ∨ CommentsEndWell s) (h : read limit s = .ok node) :
    nestingDepth s ≤ limit - 1 := by
  have hone : limit ≤ 2 → limit - 1 ≤ 1 := by omega
  obtain ⟨-, hscan⟩ := scans_of_derives (derives_of_read h) hone hcomments
  obtain ⟨deepest, hle, heq⟩ := hscan 0 0
  rw [nestingDepth, heq, deepestFrom]
  simpa [Phrase.room] using hle

end JetSql.Grammar
