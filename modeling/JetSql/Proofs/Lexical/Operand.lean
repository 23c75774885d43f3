/-
The operands of a text, found without reading statements.

An operand is a literal, a dotted name, or a star, alone or after a name. Its tokens are told from
those of other things by what stands around them. An operand is wanted where the text begins, behind
marks other than a closing parenthesis, and behind words such as `SELECT`, `AND` and `ON`. Where one
is wanted, a bare name before an opening parenthesis is what is called, and every other name is an
operand. Where none is wanted, a name is an alias, `*` is an operator, `NULL` belongs to `IS`, and a
number is a row count.

* `operands` lists the operands of a text.
* `Yields` says what pieces add to that list, and `Passes` that they add nothing. Both are about what
  stands between two places of a text, so they are put together as the pieces are (`Yields.append`).
* **`yields_name`, `yields_literal`:** what is written of an operand yields that operand.
-/

import JetSql.Proofs.Lexical.Writing
import JetSql.Proofs.Text.Case

namespace JetSql.Grammar

open Node

/-! ### Finding operands -/

/-- The reserved words that an operand stands behind, wherever they are. -/
def leadingWords : List String :=
  ["SELECT", "FROM", "WHERE", "BY", "HAVING", "TRANSFORM", "PIVOT", "AND", "OR", "LIKE", "IN",
   "BETWEEN", "JOIN", "ON", "MOD"]

/-- The literal that is a word, given in upper case. -/
def constant? (upper : String) : Option Literal :=
  if upper = "TRUE" then some (.bool true)
  else if upper = "FALSE" then some (.bool false)
  else if upper = "NULL" then some .null
  else none

/-- The literal that is a token. -/
def Token.literal? : Token → Option Literal
  | word text => constant? (String.ofList text).toUpper
  | number text => some (.number (String.ofList text))
  | string quote body => some (.string (String.ofList body) quote)
  | date body => some (.date (String.ofList (Text.trim body)))
  | bracketed _ | mark _ => none

/-- The part of a name that is a token. -/
def Token.part? : Token → Option Part
  | bracketed body => some ⟨String.ofList body, true⟩
  | word text => if isReserved (String.ofList text) then none else some ⟨String.ofList text, false⟩
  | _ => none

/-- The name that goes on behind some parts, perhaps with a star at its end, and the tokens that
follow it. -/
def nameFrom (names : List Part) : List Token → Node × List Token
  | point :: next :: rest =>
    if point = .mark ['.'] then
      match next.part? with
      | some part => nameFrom (names ++ [part]) rest
      | none =>
        if next = .mark ['*'] then (.qualifiedStar names, rest)
        else (.identifier names, point :: next :: rest)
    else (.identifier names, point :: next :: rest)
  | rest => (.identifier names, rest)

/-- The operand that begins with a token, given the tokens behind it. -/
def operandAt? (token : Token) (rest : List Token) : Option Node :=
  match token.literal?, token.part? with
  | some value, _ => some (.literal value)
  | none, some part =>
    if rest.head? = some (.mark ['(']) then none else some (nameFrom [part] rest).1
  | none, none => if token = .mark ['*'] then some .star else none

/-- The tokens behind the operand that begins with a token. -/
def behindOperand (token : Token) (rest : List Token) : List Token :=
  match token.part? with
  | some part => (nameFrom [part] rest).2
  | none => rest

/-- Whether an operand is wanted behind a token that is none, if one was or was not wanted before. -/
def Token.leads (wanted : Bool) : Token → Bool
  | mark text => text != [')']
  | number _ => true
  | word text =>
    leadingWords.contains (String.ofList text).toUpper ||
      (wanted && (String.ofList text).toUpper != "TOP")
  | _ => wanted

theorem length_nameFrom (names : List Part) (rest : List Token) :
    (nameFrom names rest).2.length ≤ rest.length := by
  fun_induction nameFrom names rest with
  | case1 names rest next part hpart ih => exact Nat.le_trans ih (Nat.le_add_right _ 2)
  | case2 => exact Nat.le_add_right _ 2
  | case3 | case4 | case5 => exact Nat.le_refl _

theorem length_behindOperand (token : Token) (rest : List Token) :
    (behindOperand token rest).length ≤ rest.length := by
  unfold behindOperand
  split
  · exact length_nameFrom _ rest
  · exact Nat.le_refl _

/-- The operands among some tokens, where one is wanted at the beginning or not. -/
def operandsFrom (wanted : Bool) : List Token → List Node
  | [] => []
  | token :: rest =>
    match if wanted then operandAt? token rest else none with
    | some operand => operand :: operandsFrom false (behindOperand token rest)
    | none => operandsFrom (token.leads wanted) rest
termination_by tokens => tokens.length
decreasing_by
  · exact Nat.lt_succ_of_le (length_behindOperand token rest)
  · exact Nat.lt_succ_self _

/-- The operands of a text. -/
def operands (tokens : List Token) : List Node :=
  operandsFrom true tokens

section

variable {wanted : Bool} {token : Token} {operand : Node} {rest : List Token}

theorem operandsFrom_nil (wanted : Bool) : operandsFrom wanted [] = [] := by
  rw [operandsFrom]

theorem operandsFrom_of_some (h : operandAt? token rest = some operand) :
    operandsFrom true (token :: rest) =
      operand :: operandsFrom false (behindOperand token rest) := by
  rw [operandsFrom, if_pos rfl, h]

theorem operandsFrom_of_none (h : wanted = true → operandAt? token rest = none) :
    operandsFrom wanted (token :: rest) = operandsFrom (token.leads wanted) rest := by
  cases wanted with
  | true => rw [operandsFrom, if_pos rfl, h rfl]
  | false => rw [operandsFrom, if_neg Bool.false_ne_true]

end

/-- `t.*` and a call, an alias and a product, `NULL` as an operand and as a part of an operator. -/
example : operands (tokens
      "SELECT TOP 3 t.*, f(a * b) AS x FROM [t u] v WHERE NOT NULL IS NOT NULL".toList) =
    [.qualifiedStar [⟨"t", false⟩], Node.name "a", Node.name "b", .identifier [⟨"t u", true⟩],
      .literal .null] := by
  cbv

/-! ### Between two places -/

/-- No name goes on into these tokens, and no name before them is called. -/
def Detached (rest : List Token) : Prop :=
  rest.head? ≠ some (.mark ['.']) ∧ rest.head? ≠ some (.mark ['('])

/-- However the pieces are written, they can stand behind a name. -/
def Detaches (pieces : List Piece) : Prop :=
  ∀ ⦃written⦄, Spells pieces written → Detached written

/-- There is no operand in the pieces, and an operand is wanted before and after them or not. -/
def Passes (pieces : List Piece) (before after : Bool) : Prop :=
  ∀ ⦃written⦄ rest, Spells pieces written →
    operandsFrom before (written ++ rest) = operandsFrom after rest

/-- The operands in the pieces, if nothing follows that a name could go on with. -/
def Yields (pieces : List Piece) (before : Bool) (found : List Node) (after : Bool) : Prop :=
  ∀ ⦃written rest⦄, Spells pieces written → Detached rest →
    operandsFrom before (written ++ rest) = found ++ operandsFrom after rest

section

variable {piece : Piece} {pieces pieces' : List Piece} {before middle after : Bool}
  {found found' : List Node} {rest : List Token}

theorem Detached.append {written : List Token} (h : Detached written) (hrest : Detached rest) :
    Detached (written ++ rest) := by
  cases written with
  | nil => exact hrest
  | cons token written => exact h

theorem Detaches.append (h : Detaches pieces) (h' : Detaches pieces') :
    Detaches (pieces ++ pieces') := by
  intro written hspells
  obtain ⟨first, second, rfl, hfirst, hsecond⟩ := spells_append_iff.mp hspells
  exact (h hfirst).append (h' hsecond)

theorem detaches_nil : Detaches [] := by
  intro written hspells
  cases hspells
  exact ⟨nofun, nofun⟩

/-- Whatever follows a token that stands apart. -/
theorem detaches_cons (h : ∀ written, piece.Fits written → written ≠ [] ∧ Detached written)
    (pieces : List Piece) : Detaches (piece :: pieces) := by
  intro written hspells
  cases hspells with
  | cons hfits hrest =>
    obtain ⟨hne, hdetached⟩ := h _ hfits
    obtain ⟨token, first, rfl⟩ := List.exists_cons_of_ne_nil hne
    exact hdetached

theorem detaches_keyword (word : String) (pieces : List Piece) :
    Detaches (.keyword word :: pieces) := by
  refine detaches_cons ?_ pieces
  rintro _ ⟨text, rfl, -⟩
  exact ⟨nofun, nofun, nofun⟩

theorem detaches_mark {text : String} (htext : text.toList ≠ ['.'] ∧ text.toList ≠ ['('])
    (pieces : List Piece) : Detaches (.mark text :: pieces) := by
  refine detaches_cons ?_ pieces
  rintro _ rfl
  simpa [Detached] using htext

theorem detaches_unequal (pieces : List Piece) : Detaches (.unequal :: pieces) := by
  refine detaches_cons ?_ pieces
  rintro _ (rfl | rfl) <;> exact ⟨nofun, nofun, nofun⟩

theorem detaches_part (part : Part) (pieces : List Piece) : Detaches (partPiece part :: pieces) := by
  refine detaches_cons ?_ pieces
  obtain ⟨_, _ | _⟩ := part <;> rintro _ rfl <;> exact ⟨nofun, nofun, nofun⟩

theorem Detaches.optional (h : Detaches [piece]) (hpieces : Detaches pieces) :
    Detaches (.optional piece :: pieces) := by
  have hpiece : Detaches [.optional piece] := by
    intro written hspells
    rcases spells_single_iff.mp hspells with rfl | hfits
    · exact ⟨nofun, nofun⟩
    · exact h (spells_single_iff.mpr hfits)
  exact hpiece.append hpieces

theorem passes_nil : Passes [] before before := by
  intro written rest hspells
  cases hspells
  rfl

theorem Passes.append (h : Passes pieces before middle) (h' : Passes pieces' middle after) :
    Passes (pieces ++ pieces') before after := by
  intro written rest hspells
  obtain ⟨first, second, rfl, hfirst, hsecond⟩ := spells_append_iff.mp hspells
  rw [List.append_assoc, h _ hfirst, h' _ hsecond]

theorem Passes.optional (h : Passes [piece] before before) :
    Passes [.optional piece] before before := by
  intro written rest hspells
  rcases spells_single_iff.mp hspells with rfl | hfits
  · rfl
  · exact h rest (spells_single_iff.mpr hfits)

theorem Passes.yields (h : Passes pieces before after) : Yields pieces before [] after :=
  fun _ _ hspells _ => h _ hspells

theorem Passes.trans (h : Passes pieces before middle) (h' : Yields pieces' middle found after) :
    Yields (pieces ++ pieces') before found after := by
  intro written rest hspells hrest
  obtain ⟨first, second, rfl, hfirst, hsecond⟩ := spells_append_iff.mp hspells
  rw [List.append_assoc, h _ hfirst, h' hsecond hrest]

/-- What pieces yield, and then what follows them yields. -/
theorem Yields.append (h : Yields pieces before found middle)
    (h' : Yields pieces' middle found' after) (hdetaches : Detaches pieces') :
    Yields (pieces ++ pieces') before (found ++ found') after := by
  intro written rest hspells hrest
  obtain ⟨first, second, rfl, hfirst, hsecond⟩ := spells_append_iff.mp hspells
  rw [List.append_assoc, h hfirst ((hdetaches hsecond).append hrest), h' hsecond hrest,
    List.append_assoc]

/-! ### Keywords and marks -/

/-- Whether an operand is wanted behind a keyword. -/
def keywordLeads (wanted : Bool) (word : String) : Bool :=
  leadingWords.contains word || (wanted && word != "TOP")

/-- A keyword is passed over; where an operand is wanted, only a reserved word that is no literal. -/
theorem passes_keyword {word : String}
    (hword : before = true → reservedWords.contains word = true ∧ constant? word = none)
    (hafter : keywordLeads before word = after) : Passes [.keyword word] before after := by
  intro written rest hspells
  obtain ⟨text, rfl, hupper⟩ := spells_single_iff.mp hspells
  have hupper : (String.ofList text).toUpper = word :=
    Text.toUpper_eq word (by rwa [String.toList_ofList])
  have hleads : (Token.word text).leads before = after := by
    rw [Token.leads, hupper]
    exact hafter
  rw [List.singleton_append, operandsFrom_of_none, hleads]
  intro hwanted
  obtain ⟨hreserved, hconstant⟩ := hword hwanted
  have hname : isReserved (String.ofList text) = true := by rwa [isReserved, hupper]
  simp [operandAt?, Token.literal?, Token.part?, hname, hupper, hconstant]

/-- A mark is passed over, and so is `*` where no operand is wanted. -/
theorem passes_mark {text : String} (htext : before = true → text.toList ≠ ['*'])
    (hafter : (text.toList != [')']) = after) : Passes [.mark text] before after := by
  intro written rest hspells
  obtain rfl := spells_single_iff.mp hspells
  rw [List.singleton_append, operandsFrom_of_none, Token.leads, hafter]
  intro hwanted
  simpa [operandAt?, Token.literal?, Token.part?] using htext hwanted

theorem passes_unequal : Passes [.unequal] false true := by
  intro written rest hspells
  rcases spells_single_iff.mp hspells with rfl | rfl <;>
    exact operandsFrom_of_none nofun

/-- Where no operand is wanted, a number counts rows. -/
theorem passes_rowCount (rows : Nat) : Passes [.rowCount rows] false true := by
  intro written rest hspells
  obtain ⟨zeros, rfl⟩ := spells_single_iff.mp hspells
  exact operandsFrom_of_none nofun

/-- No name is a word that an operand stands behind. -/
theorem leads_of_isName {name : String} (hname : IsName name) :
    (Token.word name.toList).leads false = false := by
  have hwords : leadingWords ⊆ reservedWords := by decide
  have hfree : name.toUpper ∉ leadingWords := fun hmem => by
    have hreserved := List.contains_iff_mem.mpr (hwords hmem)
    exact absurd (hname.2.symm.trans hreserved) Bool.false_ne_true
  simp [Token.leads, hfree]

/-- Where no operand is wanted, a name is an alias. -/
theorem passes_part {part : Part} (hpart : part.Formed) : Passes [partPiece part] false false := by
  intro written rest hspells
  have hfits := spells_single_iff.mp hspells
  obtain ⟨name, _ | _⟩ := part
  · obtain rfl : written = [.word name.toList] := hfits
    rw [List.singleton_append, operandsFrom_of_none (absurd · Bool.false_ne_true),
      leads_of_isName hpart]
  · obtain rfl : written = [.bracketed name.toList] := hfits
    exact operandsFrom_of_none (absurd · Bool.false_ne_true)

/-! ### Literals and stars -/

theorem yields_literal (value : Literal) :
    Yields [literalPiece value] true [.literal value] false := by
  intro written rest hspells hrest
  have hfits := spells_single_iff.mp hspells
  -- the words are reserved, so the token is no part of a name and nothing goes on from it
  have hconstant {word : String} {value : Literal} (hword : constant? word = some value)
      (hreserved : reservedWords.contains word = true)
      (hfits : (Piece.keyword word).Fits written) :
      operandsFrom true (written ++ rest) = [.literal value] ++ operandsFrom false rest := by
    obtain ⟨text, rfl, hupper⟩ := hfits
    have hupper : (String.ofList text).toUpper = word :=
      Text.toUpper_eq word (by rwa [String.toList_ofList])
    have hliteral : (Token.word text).literal? = some value := by
      rw [Token.literal?, hupper, hword]
    have hpart : (Token.word text).part? = none := by
      rw [Token.part?, if_pos (by rwa [isReserved, hupper])]
    have hoperand : operandAt? (.word text) rest = some (.literal value) := by
      rw [operandAt?, hliteral]
    rw [List.singleton_append, operandsFrom_of_some hoperand, behindOperand, hpart]
    rfl
  cases value with
  | string body quote =>
    obtain rfl : written = [.string quote body.toList] := hfits
    rw [List.singleton_append, operandsFrom_of_some rfl]
    simp [behindOperand, Token.part?]
  | number text =>
    obtain rfl : written = [.number text.toList] := hfits
    rw [List.singleton_append, operandsFrom_of_some rfl]
    simp [behindOperand, Token.part?]
  | bool value => cases value <;> exact hconstant rfl (by decide) hfits
  | null => exact hconstant rfl (by decide) hfits
  | date text =>
    obtain ⟨body, rfl, htrim⟩ := hfits
    rw [List.singleton_append, operandsFrom_of_some rfl]
    simp [behindOperand, Token.part?, htrim]

theorem yields_star : Yields [.mark "*"] true [.star] false := by
  intro written rest hspells hrest
  obtain rfl := spells_single_iff.mp hspells
  exact operandsFrom_of_some rfl

/-! ### Names -/

/-- The token of a part of a name. -/
def partToken : Part → Token
  | ⟨name, true⟩ => .bracketed name.toList
  | ⟨name, false⟩ => .word name.toList

theorem fits_partPiece_iff {part : Part} {written : List Token} :
    (partPiece part).Fits written ↔ written = [partToken part] := by
  obtain ⟨name, _ | _⟩ := part <;> rfl

theorem part?_partToken {part : Part} (hpart : part.Formed) :
    (partToken part).part? = some part := by
  obtain ⟨name, _ | _⟩ := part
  · simp [partToken, Token.part?, hpart.2]
  · simp [partToken, Token.part?]

/-- No name is the word of a literal. -/
theorem literal?_partToken {part : Part} (hpart : part.Formed) :
    (partToken part).literal? = none := by
  obtain ⟨name, _ | _⟩ := part
  · have hne (word : String) (hword : reservedWords.contains word = true) : name.toUpper ≠ word := by
      rintro rfl
      exact absurd (hpart.2.symm.trans hword) Bool.false_ne_true
    have htrue := hne "TRUE" (by decide)
    have hfalse := hne "FALSE" (by decide)
    have hnull := hne "NULL" (by decide)
    simp [partToken, Token.literal?, constant?, htrue, hfalse, hnull]
  · rfl

theorem nameFrom_of_ne (names : List Part) (h : rest.head? ≠ some (.mark ['.'])) :
    nameFrom names rest = (.identifier names, rest) := by
  match rest with
  | [] | [_] => rw [nameFrom]; simp
  | point :: next :: rest =>
    have hpoint : point ≠ .mark ['.'] := fun heq => h (congrArg some heq)
    rw [nameFrom, if_neg hpoint]

/-- A name is read from its first part to its last, and then goes on with what follows. -/
theorem nameFrom_of_spells {part : Part} {parts : List Part} {written : List Token}
    (hspells : Spells (namePieces (part :: parts)) written) (names : List Part)
    (hparts : ∀ p ∈ part :: parts, p.Formed) (rest : List Token) :
    ∃ more, written = partToken part :: more ∧
      (more.head? = none ∨ more.head? = some (.mark ['.'])) ∧
      nameFrom (names ++ [part]) (more ++ rest) = nameFrom (names ++ part :: parts) rest := by
  induction parts generalizing part names written with
  | nil =>
    obtain rfl := fits_partPiece_iff.mp (spells_single_iff.mp hspells)
    exact ⟨[], rfl, .inl rfl, rfl⟩
  | cons next parts ih =>
    rw [namePieces, separated_cons] at hspells
    obtain ⟨first, _, rfl, hfirst, hlater⟩ := spells_append_iff.mp hspells
    obtain ⟨point, second, rfl, hpoint, hsecond⟩ := spells_append_iff.mp hlater
    obtain rfl := fits_partPiece_iff.mp (spells_single_iff.mp hfirst)
    obtain rfl : point = [.mark ['.']] := spells_single_iff.mp hpoint
    obtain ⟨more, rfl, -, hmore⟩ :=
      ih hsecond (names ++ [part]) fun p hp => hparts p (List.mem_cons_of_mem _ hp)
    refine ⟨.mark ['.'] :: partToken next :: more, rfl, .inr rfl, ?_⟩
    have hnext := part?_partToken (hparts next (by simp))
    rw [List.append_assoc names [part] (next :: parts)] at hmore
    rw [List.cons_append, List.cons_append, nameFrom, if_pos rfl, hnext]
    exact hmore

/-- A name is an operand that goes on as far as the name does, unless it is called. -/
theorem operandsFrom_name {names : List Part} {written : List Token}
    (hspells : Spells (namePieces names) written) (hne : names ≠ [])
    (hnames : ∀ p ∈ names, p.Formed) (hcalled : rest.head? ≠ some (.mark ['('])) :
    operandsFrom true (written ++ rest) =
      (nameFrom names rest).1 :: operandsFrom false (nameFrom names rest).2 := by
  obtain ⟨part, parts, rfl⟩ := List.exists_cons_of_ne_nil hne
  obtain ⟨more, rfl, hhead, hmore⟩ := nameFrom_of_spells hspells [] hnames rest
  have hpart := hnames part List.mem_cons_self
  have hcalled : (more ++ rest).head? ≠ some (.mark ['(']) := by
    rw [List.head?_append]
    rcases hhead with hhead | hhead <;> simp [hhead, hcalled]
  rw [List.nil_append] at hmore
  have hoperand : operandAt? (partToken part) (more ++ rest) =
      some (nameFrom [part] (more ++ rest)).1 := by
    simp only [operandAt?, literal?_partToken hpart, part?_partToken hpart, if_neg hcalled]
  rw [List.cons_append, operandsFrom_of_some hoperand, behindOperand, part?_partToken hpart]
  simp only [hmore, List.nil_append]

theorem yields_name {names : List Part} (hne : names ≠ []) (hnames : ∀ p ∈ names, p.Formed) :
    Yields (namePieces names) true [.identifier names] false := by
  intro written rest hspells hrest
  rw [operandsFrom_name hspells hne hnames hrest.2, nameFrom_of_ne names hrest.1]
  rfl

theorem yields_qualifiedStar {names : List Part} (hne : names ≠ [])
    (hnames : ∀ p ∈ names, p.Formed) :
    Yields (namePieces names ++ [.mark ".", .mark "*"]) true [.qualifiedStar names] false := by
  intro written rest hspells hrest
  obtain ⟨first, second, rfl, hfirst, hsecond⟩ := spells_append_iff.mp hspells
  cases hsecond with
  | cons hpoint hstar =>
    obtain rfl := hpoint
    obtain rfl := spells_single_iff.mp hstar
    rw [List.append_assoc, operandsFrom_name hfirst hne hnames (by simp)]
    simp [nameFrom, Token.part?]

end

end JetSql.Grammar
