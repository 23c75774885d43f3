/-
Texts that spell operands.

`Balanced` says of a text that what encloses it goes on behind it: its parentheses close each other
and its quoted texts end in it. `Atomic` says of a text that it is read as one operand without a sign.
-/

import JetSql.Proofs.Target.Reader
import JetSql.Proofs.Text.Paired

namespace JetSql.Target

open Text

variable {dialect : Dialect} {quote c : Char} {text inside first second rest : List Char}
  {texts : List (List Char)} {expr : Expr}

/-! ### Balanced texts -/

/-- What encloses a text is found behind it. -/
def Balanced (text : List Char) : Prop :=
  ∀ depth rest, enclosed depth none (text ++ rest) =
    (enclosed depth none rest).map fun split => (text ++ split.1, split.2)

theorem balanced_nil : Balanced [] := by
  intro depth rest
  simp

theorem Balanced.append (hfirst : Balanced first) (hsecond : Balanced second) :
    Balanced (first ++ second) := by
  intro depth rest
  rw [List.append_assoc, hfirst, hsecond, Option.map_map]
  simp [Function.comp_def]

/-- A character that is neither a parenthesis nor a quote. -/
def isBare (c : Char) : Bool :=
  !(isQuote c || c == '(' || c == ')')

theorem Balanced.cons (htext : Balanced text) (h : isBare c = true) : Balanced (c :: text) := by
  intro depth rest
  simp only [isBare, Bool.not_eq_true', Bool.or_eq_false_iff, beq_eq_false_iff_ne] at h
  obtain ⟨⟨hquote, hopen⟩, hclose⟩ := h
  simp only [List.cons_append, enclosed, hclose, hopen, hquote, false_and, if_false,
    Bool.false_eq_true, htext depth rest, Option.map_map]
  rfl

theorem balanced_of_all (h : text.all isBare = true) : Balanced text := by
  induction text with
  | nil => exact balanced_nil
  | cons c text ih =>
    rw [List.all_cons, Bool.and_eq_true] at h
    exact (ih h.2).cons h.1

theorem Balanced.parens (h : Balanced inside) : Balanced ('(' :: (inside ++ [')'])) := by
  intro depth rest
  have hclose :
      enclosed (depth + 1) none (')' :: rest) = (enclosed depth none rest).map (keep ')') := by
    simp [enclosed, isQuote]
  rw [List.cons_append, List.append_assoc, List.singleton_append, enclosed]
  simp only [Char.reduceEq, false_and, if_false, if_true]
  rw [show isQuote '(' = false from rfl, if_neg Bool.false_ne_true, h, hclose, Option.map_map,
    Option.map_map]
  simp [Function.comp_def, keep]

/-- A quoted text goes on to the quote that closes it, past those that stand in pairs. -/
theorem enclosed_quoted (hquote : isQuote quote = true) (h : paired quote inside = true) (depth : Nat)
    (rest : List Char) : enclosed depth (some quote) (inside ++ quote :: rest) =
      (enclosed depth none rest).map fun split => (inside ++ quote :: split.1, split.2) := by
  have hclose : quote ≠ ')' ∧ quote ≠ '(' := by
    constructor <;> rintro rfl <;> cases hquote
  fun_induction paired quote inside with
  | case1 =>
    simp only [List.nil_append, enclosed, if_true]
    rfl
  | case2 c =>
    have hc : c ≠ quote := by simpa using h
    simp [enclosed, keep, hc, Function.comp_def]
  | case3 d inside ih =>
    rw [Bool.and_eq_true, beq_iff_eq] at h
    obtain ⟨rfl, h⟩ := h
    simp [enclosed, keep, hquote, hclose, ih h, Function.comp_def]
  | case4 c d inside hc ih =>
    rw [List.cons_append, enclosed, if_neg hc, ih h, Option.map_map]
    rfl

theorem balanced_quoted (hquote : isQuote quote = true) (h : paired quote inside = true) :
    Balanced (quote :: (inside ++ [quote])) := by
  have hclose : quote ≠ ')' ∧ quote ≠ '(' := by
    constructor <;> rintro rfl <;> cases hquote
  intro depth rest
  simp [enclosed, hclose, hquote, enclosed_quoted hquote h, keep, Function.comp_def]

theorem balanced_intercalate {mark : List Char} (hmark : Balanced mark)
    (h : ∀ text ∈ texts, Balanced text) : Balanced (mark.intercalate texts) := by
  induction texts with
  | nil => exact balanced_nil
  | cons text texts ih =>
    obtain ⟨htext, htexts⟩ := List.forall_mem_cons.mp h
    cases texts with
    | nil => simpa using htext
    | cons next texts =>
      rw [List.intercalate_cons_cons, List.append_assoc]
      exact htext.append (hmark.append (ih htexts))

/-! ### Names and numbers -/

/-- A name or number goes on behind a text. -/
def Passes (quote : Char) (text : List Char) : Prop :=
  ∀ rest, token quote false (text ++ rest) =
    (text ++ (token quote false rest).1, (token quote false rest).2)

theorem passes_nil : Passes quote [] := by
  intro rest
  simp

theorem Passes.append (hfirst : Passes quote first) (hsecond : Passes quote second) :
    Passes quote (first ++ second) := by
  intro rest
  rw [List.append_assoc, hfirst, hsecond, List.append_assoc]

theorem ne_of_isTokenChar (hquote : isQuote quote = true) (h : isTokenChar c = true) : c ≠ quote := by
  rintro rfl
  simp only [isQuote, Bool.or_eq_true, beq_iff_eq] at hquote
  rcases hquote with (rfl | rfl) | rfl <;> exact absurd h (by decide)

theorem passes_of_all (hquote : isQuote quote = true) (h : text.all isTokenChar = true) :
    Passes quote text := by
  induction text with
  | nil => exact passes_nil
  | cons c text ih =>
    rw [List.all_cons, Bool.and_eq_true] at h
    intro rest
    rw [List.cons_append, token, if_neg Bool.false_ne_true, if_neg (ne_of_isTokenChar hquote h.1),
      if_pos h.1, ih h.2]
    rfl

theorem token_double (body rest : List Char) : token quote true (double quote body ++ rest) =
    (double quote body ++ (token quote true rest).1, (token quote true rest).2) := by
  induction body with
  | nil => rfl
  | cons c body ih =>
    by_cases hc : c = quote
    · subst hc
      simp [double, token, ih, keep]
    · have hopen : (c != quote) = true := bne_iff_ne.mpr hc
      simp [double, token, hc, hopen, ih, keep]

/-- A quoted name is passed with the quotes that are doubled in it. -/
theorem passes_enclose (body : List Char) : Passes quote (enclose quote body) := by
  intro rest
  have hopen : token quote false (quote :: (double quote body ++ quote :: rest)) =
      keep quote (token quote true (double quote body ++ quote :: rest)) := by
    rw [token, if_neg Bool.false_ne_true, if_pos rfl]
  have hclose : token quote true (quote :: rest) = keep quote (token quote false rest) := by
    rw [token, if_pos rfl, bne_self_eq_false]
  rw [enclose, List.cons_append, List.append_assoc, List.singleton_append, hopen, token_double, hclose]
  simp [keep]

theorem passes_intercalate (hquote : isQuote quote = true)
    (h : ∀ text ∈ texts, Passes quote text) : Passes quote (['.'].intercalate texts) := by
  induction texts with
  | nil => exact passes_nil
  | cons text texts ih =>
    obtain ⟨htext, htexts⟩ := List.forall_mem_cons.mp h
    cases texts with
    | nil => simpa using htext
    | cons next texts =>
      rw [List.intercalate_cons_cons, List.append_assoc]
      exact htext.append ((passes_of_all hquote (by decide)).append (ih htexts))

/-! ### Operands -/

/-- A text that is read as one operand without a sign, whatever follows it. -/
def Atomic (quote : Char) (text : List Char) (expr : Expr) : Prop :=
  expr.IsOperand ∧ ∀ rest, Ends rest → atom quote (text ++ rest) = some (expr, rest)

theorem enclosed_of_balanced (h : Balanced inside) (rest : List Char) :
    enclosed 0 none (inside ++ ')' :: rest) = some (inside, rest) := by
  rw [h]
  simp [enclosed]

theorem atomic_group (h : Balanced inside) :
    Atomic quote ('(' :: (inside ++ [')'])) (.group inside) := by
  refine ⟨rfl, fun rest _ => ?_⟩
  rw [List.cons_append, List.append_assoc, List.singleton_append, atom, if_pos rfl,
    enclosed_of_balanced h]
  rfl

theorem token_of_ends (h : Ends rest) (hquote : isQuote quote = true) :
    token quote false rest = ([], rest) := by
  obtain rfl | ⟨rest, rfl⟩ := h
  · rfl
  · have : ' ' ≠ quote := by
      rintro rfl
      cases hquote
    rw [token, if_neg Bool.false_ne_true, if_neg this, if_neg (by decide)]

theorem atomic_token (hquote : isQuote quote = true) (h : Passes quote text) (hne : text ≠ [])
    (hhead : text.head? ≠ some '(') : Atomic quote text (.token text) := by
  refine ⟨rfl, fun rest hends => ?_⟩
  obtain ⟨c, text, rfl⟩ := List.exists_cons_of_ne_nil hne
  have hc : c ≠ '(' := by simpa using hhead
  have htoken : token quote false (c :: (text ++ rest)) = (c :: text, rest) := by
    rw [← List.cons_append, h, token_of_ends hends hquote, List.append_nil]
  rw [List.cons_append, atom, if_neg hc, htoken]
  obtain rfl | ⟨rest, rfl⟩ := hends <;> rfl

/-- A call stands in parentheses right after a name. -/
theorem atomic_call (hquote : isQuote quote = true) (hne : text ≠ [])
    (htext : text.all isTokenChar = true) (hinside : Balanced inside) :
    Atomic quote (text ++ '(' :: (inside ++ [')'])) (.call text inside) := by
  have h := passes_of_all hquote htext
  refine ⟨rfl, fun rest _ => ?_⟩
  obtain ⟨c, text, rfl⟩ := List.exists_cons_of_ne_nil hne
  have hc : c ≠ '(' := by
    rintro rfl
    cases htext
  have hopen : token quote false ('(' :: (inside ++ ')' :: rest)) =
      ([], '(' :: (inside ++ ')' :: rest)) := by
    have : '(' ≠ quote := by
      rintro rfl
      cases hquote
    rw [token, if_neg Bool.false_ne_true, if_neg this, if_neg (by decide)]
  have htoken : token quote false (c :: (text ++ '(' :: (inside ++ ')' :: rest))) =
      (c :: text, '(' :: (inside ++ ')' :: rest)) := by
    rw [← List.cons_append, h, hopen, List.append_nil]
  have hassoc : c :: text ++ '(' :: (inside ++ [')']) ++ rest =
      c :: (text ++ '(' :: (inside ++ ')' :: rest)) := by simp
  rw [hassoc, atom, if_neg hc, htoken]
  exact congrArg (Option.map _) (enclosed_of_balanced hinside rest)

/-! ### Signs -/

/-- What is read as an operand without a sign begins with neither a blank nor a minus sign. -/
theorem head?_ne_of_atom {s : List Char} (hquote : isQuote quote = true) (hopen : c ≠ '(')
    (hquoted : isQuote c = false) (hc : isTokenChar c = false) (h : atom quote s = some (expr, rest)) :
    s.head? ≠ some c := by
  cases s with
  | nil => simp
  | cons d s =>
    rintro ⟨⟩
    have hne : c ≠ quote := by
      rintro rfl
      rw [hquote] at hquoted
      cases hquoted
    have hnone : atom quote (c :: s) = none := by
      rw [atom, if_neg hopen, token, if_neg Bool.false_ne_true, if_neg hne,
        if_neg (Bool.not_eq_true _ ▸ hc)]
    rw [hnone] at h
    cases h

theorem operand_of_atom {s : List Char} (hquote : isQuote quote = true)
    (h : atom quote s = some (expr, rest)) : operand quote s = some (expr, rest) := by
  have hblank := head?_ne_of_atom (c := ' ') hquote (by decide) rfl (by decide) h
  have hminus := head?_ne_of_atom (c := '-') hquote (by decide) rfl (by decide) h
  rw [operand, h]
  · rintro s rfl
    exact hblank rfl
  · rintro s rfl
    exact hminus rfl

theorem isQuote_nameQuote (dialect : Dialect) : isQuote dialect.nameQuote = true := by
  cases dialect <;> rfl

theorem Atomic.spells (h : Atomic dialect.nameQuote text expr) : Spells dialect text expr := by
  obtain ⟨hoperand, hatom⟩ := h
  obtain ⟨hfirst, hlinks⟩ := hoperand.first_eq
  intro rest hends
  refine ⟨rest, ?_, by rw [hlinks]; rfl⟩
  rw [hfirst, operand_of_atom (isQuote_nameQuote dialect) (hatom rest hends)]

theorem Atomic.spells_minus (h : Atomic dialect.nameQuote text expr) :
    Spells dialect ('-' :: text) (.minus expr) := by
  intro rest hends
  have hquote := isQuote_nameQuote dialect
  have hatom := h.2 rest hends
  have hminus := head?_ne_of_atom (c := '-') hquote (by decide) rfl (by decide) hatom
  refine ⟨rest, ?_, rfl⟩
  rw [List.cons_append, operand, if_neg hminus, operand_of_atom hquote hatom]
  rfl

end JetSql.Target
