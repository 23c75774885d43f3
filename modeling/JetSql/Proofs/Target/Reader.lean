/-
Reading expressions of a target.

A minus sign before an operand binds most tightly; the operators between operands are grouped as
`Expr.assemble` says. Parentheses and calls are operands, and what stands in them is kept as text: it
goes on to the parenthesis that closes them, past quoted texts. Two minus signs in a row open a
comment, so they are neither a sign nor an operator.

* **`read_of_spells`:** a text that spells an ordered tree is read as that tree.
-/

import JetSql.Dialect
import JetSql.Proofs.Target.Tree
import JetSql.Text.Word

namespace JetSql.Target

open Text

/-! ### Operands -/

/-- Whether the character opens a quoted text. -/
def isQuote (c : Char) : Bool :=
  c == '\'' || c == '"' || c == '\x60'

/-- A character before what was split off a text. -/
def keep (c : Char) (split : List Char × List Char) : List Char × List Char :=
  (c :: split.1, split.2)

/-- What stands before the parenthesis that closes so many open ones and one more, and what follows
it. A quoted text goes on to the next quote of its kind. -/
def enclosed (depth : Nat) : Option Char → List Char → Option (List Char × List Char)
  | _, [] => none
  | some quote, c :: s => (enclosed depth (if c = quote then none else some quote) s).map (keep c)
  | none, c :: s =>
    if c = ')' ∧ depth = 0 then some ([], s)
    else
      (enclosed (if c = ')' then depth - 1 else if c = '(' then depth + 1 else depth)
        (if isQuote c then some c else none) s).map (keep c)

/-- Whether a name or a number goes on with the character. -/
def isTokenChar (c : Char) : Bool :=
  isWordChar c || c == '.'

/-- The name or number that a text begins with, and what follows it: word characters, points and
quoted texts. -/
def token (quote : Char) (quoted : Bool) : List Char → List Char × List Char
  | [] => ([], [])
  | c :: s =>
    if quoted then keep c (token quote (c != quote) s)
    else if c = quote then keep c (token quote true s)
    else if isTokenChar c then keep c (token quote false s)
    else ([], c :: s)

/-- An operand without a sign. -/
def atom (quote : Char) : List Char → Option (Expr × List Char)
  | [] => none
  | c :: s =>
    if c = '(' then (enclosed 0 none s).map fun (inside, rest) => (.group inside, rest)
    else
      match token quote false (c :: s) with
      | ([], _) => none
      | (text, '(' :: rest) =>
        (enclosed 0 none rest).map fun (inside, rest) => (.call text inside, rest)
      | (text, rest) => some (.token text, rest)

/-- An operand with its signs, after blanks. -/
def operand (quote : Char) : List Char → Option (Expr × List Char)
  | ' ' :: s => operand quote s
  | '-' :: s =>
    if s.head? = some '-' then none
    else (operand quote s).map fun (expr, rest) => (.minus expr, rest)
  | s => atom quote s

/-! ### Operators -/

/-- The operator that a text begins with, after blanks. -/
def operator? (dialect : Dialect) : List Char → Option (Operator × List Char)
  | ' ' :: s => operator? dialect s
  | '+' :: s => some (.add, s)
  | '-' :: s => if s.head? = some '-' then none else some (.sub, s)
  | '*' :: s => some (.mul, s)
  | '/' :: s => some (.div, s)
  | '%' :: s => some (.rem, s)
  | '|' :: '|' :: s => if dialect = .sqlite then some (.join, s) else none
  | 'D' :: 'I' :: 'V' :: s =>
    if dialect = .mysql ∧ s.head?.any isWordChar = false then some (.intDiv, s) else none
  | _ => none

/-! ### Reading gets on -/

section

variable {dialect : Dialect} {quote : Char} {depth : Nat} {open? : Option Char} {quoted : Bool}
  {s inside rest : List Char} {expr : Expr} {op : Operator}

theorem length_lt_of_enclosed (h : enclosed depth open? s = some (inside, rest)) :
    rest.length < s.length := by
  fun_induction enclosed depth open? s generalizing inside with
  | case1 => cases h
  | case2 depth q c s ih =>
    obtain ⟨⟨body, rest'⟩, hbody, hkeep⟩ := Option.map_eq_some_iff.mp h
    cases hkeep
    exact Nat.lt_succ_of_lt (ih hbody)
  | case3 =>
    cases h
    simp
  | case4 depth c s hclose ih =>
    obtain ⟨⟨body, rest'⟩, hbody, hkeep⟩ := Option.map_eq_some_iff.mp h
    cases hkeep
    exact Nat.lt_succ_of_lt (ih hbody)

theorem length_token_le : (token quote quoted s).2.length ≤ s.length := by
  fun_induction token quote quoted s <;> simp_all [keep] <;> omega

theorem length_le_of_atom (h : atom quote s = some (expr, rest)) : rest.length ≤ s.length := by
  cases s with
  | nil => cases h
  | cons c s =>
    have htoken : (token quote false (c :: s)).2.length ≤ (c :: s).length := length_token_le
    rw [atom] at h
    split at h
    · obtain ⟨⟨inside, rest'⟩, hinside, hgroup⟩ := Option.map_eq_some_iff.mp h
      cases hgroup
      exact Nat.le_succ_of_le (Nat.le_of_lt (length_lt_of_enclosed hinside))
    · split at h
      · cases h
      · rename_i text after _ hsplit
        obtain ⟨⟨inside, rest'⟩, hinside, hcall⟩ := Option.map_eq_some_iff.mp h
        cases hcall
        have := length_lt_of_enclosed hinside
        rw [hsplit] at htoken
        simp only [List.length_cons] at htoken ⊢
        omega
      · rename_i text after _ _ hsplit
        cases h
        rwa [hsplit] at htoken

theorem length_le_of_operand (h : operand quote s = some (expr, rest)) : rest.length ≤ s.length := by
  fun_induction operand quote s generalizing expr with
  | case1 s ih => exact Nat.le_succ_of_le (ih h)
  | case2 => cases h
  | case3 s _ ih =>
    obtain ⟨⟨inner, rest'⟩, hinner, hminus⟩ := Option.map_eq_some_iff.mp h
    cases hminus
    exact Nat.le_succ_of_le (ih hinner)
  | case4 => exact length_le_of_atom h

theorem length_lt_of_operator (h : operator? dialect s = some (op, rest)) : rest.length < s.length := by
  fun_induction operator? dialect s <;> simp_all <;> omega

end

/-! ### Expressions -/

/-- The operators that a text goes on with, each with the operand that follows it, and what is left
where there is no more operator. -/
def further (dialect : Dialect) (s : List Char) : List (Operator × Expr) × List Char :=
  match _hop : operator? dialect s with
  | none => ([], s)
  | some (op, middle) =>
    match _hoperand : operand dialect.nameQuote middle with
    | none => ([], s)
    | some (expr, after) =>
      let (links, rest) := further dialect after
      ((op, expr) :: links, rest)
termination_by s.length
decreasing_by exact Nat.lt_of_le_of_lt (length_le_of_operand _hoperand) (length_lt_of_operator _hop)

/-- The expression that a text begins with, and what is left. -/
def readPrefix (dialect : Dialect) (s : List Char) : Option (Expr × List Char) := do
  let (first, after) ← operand dialect.nameQuote s
  let (links, rest) := further dialect after
  return (Expr.assemble first links, rest)

/-- The expression that a text is. -/
def read (dialect : Dialect) (s : List Char) : Option Expr :=
  match readPrefix dialect s with
  | some (expr, []) => some expr
  | _ => none

/-! ### Texts that spell an expression -/

/-- Whether a dialect has an operator. -/
def Operator.IsOf (dialect : Dialect) : Operator → Prop
  | .intDiv => dialect = .mysql
  | .join => dialect = .sqlite
  | _ => True

variable {dialect : Dialect} {s middle rest text : List Char} {op : Operator} {expr left right : Expr}

theorem operator?_symbol (hop : op.IsOf dialect) (s : List Char) :
    operator? dialect (' ' :: (op.symbol.toList ++ ' ' :: s)) = some (op, ' ' :: s) := by
  cases op with
  | intDiv | join =>
    obtain rfl : dialect = _ := hop
    rfl
  | _ => rfl

theorem further_of_none (h : operator? dialect s = none) : further dialect s = ([], s) := by
  rw [further]
  split
  · rfl
  · rename_i hop
    rw [h] at hop
    cases hop

theorem further_of_some (hop : operator? dialect s = some (op, middle))
    (hoperand : operand dialect.nameQuote middle = some (expr, rest)) :
    further dialect s = ((op, expr) :: (further dialect rest).1, (further dialect rest).2) := by
  rw [further]
  split
  · rename_i hnone
    rw [hop] at hnone
    cases hnone
  · rename_i hop'
    rw [hop] at hop'
    cases hop'
    split
    · rename_i hnone
      rw [hoperand] at hnone
      cases hnone
    · rename_i hoperand'
      rw [hoperand] at hoperand'
      cases hoperand'
      rfl

/-- A text after which a token does not go on. -/
def Ends (s : List Char) : Prop :=
  s = [] ∨ ∃ rest, s = ' ' :: rest

/-- A text that is read as the operands and operators of an expression, whatever follows it. -/
def Spells (dialect : Dialect) (text : List Char) (expr : Expr) : Prop :=
  ∀ rest, Ends rest → ∃ after, operand dialect.nameQuote (text ++ rest) = some (expr.first, after) ∧
    further dialect after = (expr.links ++ (further dialect rest).1, (further dialect rest).2)

/-- **A text that spells an ordered expression is read as it**, up to where no operator follows. -/
theorem readPrefix_of_spells (h : Spells dialect text expr) (hordered : expr.Ordered)
    (hends : Ends rest) (hstop : operator? dialect rest = none) :
    readPrefix dialect (text ++ rest) = some (expr, rest) := by
  obtain ⟨after, hoperand, hfurther⟩ := h rest hends
  rw [further_of_none hstop, List.append_nil] at hfurther
  simp only [readPrefix, hoperand, Option.bind_eq_bind, Option.bind_some, hfurther,
    Expr.assemble_of_ordered hordered]
  rfl

theorem read_of_spells (h : Spells dialect text expr) (hordered : expr.Ordered) :
    read dialect text = some expr := by
  have hprefix := readPrefix_of_spells h hordered (.inl rfl) rfl
  rw [List.append_nil] at hprefix
  rw [read, hprefix]

/-- Two spelled expressions with an operator between them. -/
theorem Spells.binary {second : List Char} (hleft : Spells dialect text left) (hop : op.IsOf dialect)
    (hright : Spells dialect second right) :
    Spells dialect (text ++ ' ' :: (op.symbol.toList ++ ' ' :: second)) (.binary left op right) := by
  intro rest hends
  obtain ⟨afterRight, hoperand, hfurther⟩ := hright rest hends
  have hnext : further dialect (' ' :: (op.symbol.toList ++ ' ' :: (second ++ rest))) =
      ((op, right.first) :: (right.links ++ (further dialect rest).1), (further dialect rest).2) := by
    rw [further_of_some (operator?_symbol hop _) hoperand, hfurther]
  obtain ⟨after, hfirst, hlinks⟩ := hleft (' ' :: (op.symbol.toList ++ ' ' :: (second ++ rest)))
    (.inr ⟨_, rfl⟩)
  refine ⟨after, ?_, ?_⟩
  · simp only [List.append_assoc, List.cons_append]
    exact hfirst
  · rw [hlinks, hnext]
    simp [Expr.links]

end JetSql.Target
