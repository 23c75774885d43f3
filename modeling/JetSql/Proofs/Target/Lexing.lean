/-
Lexing the text of a target.

A lexer of a target knows strings in single quotes and names in the quotes of the dialect. Between
quotes the quote itself is written twice, and nothing else is special there. Outside of quotes two
minus signs, or a slash and a star, begin a comment.

`scan` runs through a text as such a lexer does. It comes to the quotations of the text if every
quoted text ends, nothing outside of quotes begins a comment, and the parentheses outside of quotes
close each other.

* `Finds` says of a text which quotations are found in it wherever it stands, as long as no quote
  follows right after it; `Parts` says so of a text that any text may follow.
* **`finds_quoted`:** of a text between quotes, the quotation that it is.
-/

import JetSql.Proofs.Target.Spelling

namespace JetSql.Target

open Text

/-- A quoted text. -/
structure Quotation where
  quote : Char
  /-- What stands between the quotes, every pair of quotes read as one. -/
  body : List Char
deriving DecidableEq, Repr

/-- Whether a string or a quoted name begins with the character. -/
def opensQuote (dialect : Dialect) (c : Char) : Bool :=
  c == '\'' || c == dialect.nameQuote

/-- Whether a comment begins with the character, if the text goes on in this way. -/
def opensComment (c : Char) (s : List Char) : Bool :=
  c == '-' && s.head? == some '-' || c == '/' && s.head? == some '*'

/-- The quotations of a text in which so many parentheses are still to be closed. There are none to
be had if a quoted text does not end, a comment begins, or the parentheses do not close each other. -/
def scan (dialect : Dialect) (level : Nat) : List Char → Option (List Quotation)
  | [] => if level = 0 then some [] else none
  | c :: s =>
    if opensQuote dialect c then
      match _hsplit : splitBody c s with
      | (_, []) => none
      | (body, _ :: rest) => (scan dialect level rest).map (⟨c, undouble c body⟩ :: ·)
    else if opensComment c s then none
    else if c = '(' then scan dialect (level + 1) s
    else if c = ')' then
      if level = 0 then none else scan dialect (level - 1) s
    else scan dialect level s
termination_by s => s.length
decreasing_by
  · have hs := congrArg List.length (splitBody_append c s)
    simp only [_hsplit, List.length_append, List.length_cons] at hs ⊢
    omega
  all_goals simp

variable {dialect : Dialect} {quote c : Char} {level : Nat} {s rest body text first second mark :
  List Char} {found found' : List Quotation}

/-! ### Single steps -/

theorem opensQuote_of_isQuote_eq_false (h : isQuote c = false) : opensQuote dialect c = false := by
  rw [opensQuote, Bool.or_eq_false_iff, beq_eq_false_iff_ne, beq_eq_false_iff_ne]
  constructor
  · rintro rfl
    cases h
  · rintro rfl
    rw [isQuote_nameQuote] at h
    cases h

theorem isQuote_of_opensQuote (h : opensQuote dialect c = true) : isQuote c = true := by
  cases hquote : isQuote c with
  | true => rfl
  | false =>
    rw [opensQuote_of_isQuote_eq_false hquote] at h
    cases h

/-- A text between quotes is one quotation. -/
theorem scan_quoted (hquote : opensQuote dialect quote = true) (hbody : paired quote body = true)
    (hrest : rest.head? ≠ some quote) : scan dialect level (quote :: (body ++ quote :: rest)) =
      (scan dialect level rest).map (⟨quote, undouble quote body⟩ :: ·) := by
  have hsplit := splitBody_of_paired hbody hrest
  rw [scan, if_pos hquote]
  split
  · rename_i hnone
    rw [hsplit] at hnone
    cases hnone
  · rename_i hsome
    rw [hsplit] at hsome
    cases hsome
    rfl

theorem scan_open (s : List Char) : scan dialect level ('(' :: s) = scan dialect (level + 1) s := by
  rw [scan, opensQuote_of_isQuote_eq_false rfl, if_neg Bool.false_ne_true,
    if_neg (by simp [opensComment]), if_pos rfl]

theorem scan_close (s : List Char) : scan dialect (level + 1) (')' :: s) = scan dialect level s := by
  rw [scan, opensQuote_of_isQuote_eq_false rfl, if_neg Bool.false_ne_true,
    if_neg (by simp [opensComment]), if_neg (by decide), if_pos rfl, if_neg (Nat.succ_ne_zero level),
    Nat.add_sub_cancel]

/-- What is no quote, no parenthesis and does not begin a comment is skipped. -/
theorem scan_cons (hc : isBare c = true) (hcomment : opensComment c s = false) :
    scan dialect level (c :: s) = scan dialect level s := by
  simp only [isBare, Bool.not_eq_true', Bool.or_eq_false_iff, beq_eq_false_iff_ne] at hc
  obtain ⟨⟨hquote, hopen⟩, hclose⟩ := hc
  rw [scan, opensQuote_of_isQuote_eq_false hquote, if_neg Bool.false_ne_true,
    hcomment, if_neg Bool.false_ne_true, if_neg hopen, if_neg hclose]

/-! ### Texts and what follows them -/

/-- The text does not go on with a quote, which would go on a quoted text before it. -/
def Detached (s : List Char) : Prop :=
  s.head?.any isQuote = false

/-- The quotations of a text wherever it stands, unless a quote follows it. -/
def Finds (dialect : Dialect) (text : List Char) (found : List Quotation) : Prop :=
  ∀ level rest, Detached rest →
    scan dialect level (text ++ rest) = (scan dialect level rest).map (found ++ ·)

/-- The quotations of a text wherever it stands and whatever follows it. -/
def Parts (dialect : Dialect) (text : List Char) (found : List Quotation) : Prop :=
  ∀ level rest, scan dialect level (text ++ rest) = (scan dialect level rest).map (found ++ ·)

theorem Parts.finds (h : Parts dialect text found) : Finds dialect text found :=
  fun level rest _ => h level rest

theorem Parts.append_finds (hfirst : Parts dialect first found)
    (hsecond : Finds dialect second found') :
    Finds dialect (first ++ second) (found ++ found') := by
  intro level rest hrest
  rw [List.append_assoc, hfirst, hsecond level rest hrest, Option.map_map]
  simp [Function.comp_def]

/-! ### Marks -/

/-- A character that is skipped wherever it stands. -/
def isSkipped (c : Char) : Bool :=
  isBare c && c != '-' && c != '/'

theorem parts_of_all (h : text.all isSkipped = true) : Parts dialect text [] := by
  intro level rest
  induction text with
  | nil => simp
  | cons c text ih =>
    rw [List.all_cons, Bool.and_eq_true] at h
    obtain ⟨hc, htext⟩ := h
    simp only [isSkipped, Bool.and_eq_true, bne_iff_ne] at hc
    rw [List.cons_append, scan_cons hc.1.1 (by simp [opensComment, hc.1.2, hc.2]), ih htext]

/-- A minus sign or a slash that stands between blanks does not begin a comment. -/
theorem parts_sign (hc : isBare c = true) : Parts dialect [' ', c, ' '] [] := by
  intro level rest
  have hsign (s : List Char) : opensComment c (' ' :: s) = false := by simp [opensComment]
  rw [List.cons_append, scan_cons (by decide) (by simp [opensComment]), List.cons_append,
    List.singleton_append, scan_cons hc (hsign _), scan_cons (by decide) (by simp [opensComment])]
  simp

/-- A text that quotes nothing and begins without a quote: it parts what stands before it from what
follows. -/
structure Mark (dialect : Dialect) (mark : List Char) : Prop where
  parts : Parts dialect mark []
  unquoted : mark.head?.any (fun c => !isQuote c) = true

/-- Whether a text is skipped, and there is something to it. -/
def isMark (text : List Char) : Bool :=
  text.all isSkipped && !text.isEmpty

theorem mark_of_isMark (h : isMark mark = true) : Mark dialect mark := by
  rw [isMark, Bool.and_eq_true] at h
  obtain ⟨hall, hne⟩ := h
  refine ⟨parts_of_all hall, ?_⟩
  cases mark with
  | nil => cases hne
  | cons c mark =>
    rw [List.all_cons, Bool.and_eq_true] at hall
    obtain ⟨hc, -⟩ := hall
    simp only [isSkipped, isBare, Bool.and_eq_true, Bool.not_eq_true', Bool.or_eq_false_iff] at hc
    simpa using hc.1.1.1.1

/-- A mark after a text. -/
theorem Finds.append_mark (h : Finds dialect text found) (hmark : Mark dialect mark) :
    Parts dialect (text ++ mark) found := by
  obtain ⟨hparts, hunquoted⟩ := hmark
  intro level rest
  have hdetached : Detached (mark ++ rest) := by
    cases mark with
    | nil => cases hunquoted
    | cons c mark => simpa [Detached] using hunquoted
  rw [List.append_assoc, h level _ hdetached, hparts]
  simp

/-- Two texts with a mark between them. -/
theorem Finds.between (hfirst : Finds dialect first found) (hmark : Mark dialect mark)
    (hsecond : Finds dialect second found') :
    Finds dialect (first ++ (mark ++ second)) (found ++ found') := by
  rw [← List.append_assoc]
  exact (hfirst.append_mark hmark).append_finds hsecond

/-! ### Quoted texts and parentheses -/

theorem finds_quoted (hquote : isQuote quote = true) (hopens : opensQuote dialect quote = true)
    (hbody : paired quote body = true) :
    Finds dialect (quote :: (body ++ [quote])) [⟨quote, undouble quote body⟩] := by
  intro level rest hrest
  have hhead : rest.head? ≠ some quote := by
    intro h
    rw [Detached, h, Option.any_some, hquote] at hrest
    cases hrest
  rw [List.cons_append, List.append_assoc, List.singleton_append, scan_quoted hopens hbody hhead]
  rfl

/-- A text between parentheses. -/
theorem Finds.parens (h : Finds dialect text found) :
    Parts dialect ('(' :: (text ++ [')'])) found := by
  intro level rest
  have hclose : Detached (')' :: rest) := rfl
  rw [List.cons_append, List.append_assoc, List.singleton_append, scan_open,
    h (level + 1) _ hclose, scan_close]

end JetSql.Target
