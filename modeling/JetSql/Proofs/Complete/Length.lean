/-
No phrase leaves more text than there was.

A list is read with as many items in prospect as the text after its first one has characters. That
this is enough follows from the lengths of what is left: a separator is one character at least, and no
item gives any back. What a reader leaves is an end of its text (`Reader.Keeps`), so this holds of
tokens already, and what is left to do is an induction over phrases.

* **`length_le_of_derives`:** no phrase leaves more text than there was.
-/

import JetSql.Proofs.Grammar.Derivation
import JetSql.Proofs.Grammar.Leaf
import JetSql.Proofs.Grammar.Suffix

namespace JetSql.Grammar

open Reader

variable {s rest : List Char}

/-! ### Marks -/

theorem length_skipSpacing_le (s : List Char) : (skipSpacing s).length ≤ s.length :=
  length_skip_le false s

/-- What stands behind a token is shorter than the text by the token at least. -/
theorem length_add_le_of_skipSpacing (token : List Char) (h : skipSpacing s = token ++ rest) :
    token.length + rest.length ≤ s.length := by
  have hlength := length_skipSpacing_le s
  rwa [h, List.length_append] at hlength

theorem length_le_of_skipSpacing (token : List Char) (h : skipSpacing s = token ++ rest) :
    rest.length ≤ s.length :=
  Nat.le_trans (Nat.le_add_left ..) (length_add_le_of_skipSpacing token h)

/-! ### Phrases -/

theorem Listed.length_le {α : Type} {separator : Reader Unit}
    {item : List Char → α → List Char → Prop} {values : List α}
    (h : Listed separator item s values rest) (hseparator : separator.Keeps)
    (hitem : ∀ s value rest, item s value rest → rest.length ≤ s.length) :
    rest.length ≤ s.length := by
  induction h with
  | last h => exact hitem _ _ _ h
  | cons h hsep _ ih =>
    exact Nat.le_trans ih (Nat.le_trans (hseparator.length_le hsep) (hitem _ _ _ h))

section Clauses

variable {opening : Reader Unit} {item : List Char → Node → List Char → Prop}

theorem Clause.length_le {clause : Option Node} (h : Clause opening item s clause rest)
    (hopening : opening.Keeps)
    (hitem : ∀ s node rest, item s node rest → rest.length ≤ s.length) :
    rest.length ≤ s.length := by
  cases h with
  | absent => exact Nat.le_refl _
  | present hopens h => exact Nat.le_trans (hitem _ _ _ h) (hopening.length_le hopens)

theorem ListClause.length_le {nodes : List Node} (h : ListClause opening item s nodes rest)
    (hopening : opening.Keeps)
    (hitem : ∀ s node rest, item s node rest → rest.length ≤ s.length) :
    rest.length ≤ s.length := by
  cases h with
  | absent => exact Nat.le_refl _
  | present hopens h =>
    exact Nat.le_trans (h.length_le (keeps_symbol ",") hitem) (hopening.length_le hopens)

end Clauses

/-- **No phrase leaves more text than there was.** -/
theorem length_le_of_derives {phrase : Phrase} {b : Nat} {node : Node}
    (h : Derives phrase b s node rest) : rest.length ≤ s.length := by
  have hskip (s : List Char) := length_skipSpacing_le s
  have hword {word : String} {s rest : List Char} (h : keyword word s = .ok () rest) :=
    (keeps_keyword word).length_le h
  have hmark {mark : String} {s rest : List Char} (h : symbol mark s = .ok () rest) :=
    (keeps_symbol mark).length_le h
  induction h with
  | operand _ _ ihleading ihchain => exact Nat.le_trans ihchain ihleading
  | @not _ s _ _ _ hnot _ ih => exact Nat.le_trans ih (Nat.le_trans (hword hnot) (hskip s))
  | negate hminus _ ih =>
    exact Nat.le_trans ih (length_le_of_skipSpacing ['-'] hminus)
  | grouped hopen _ hclose ih =>
    exact Nat.le_trans (hmark hclose)
      (Nat.le_trans ih (length_le_of_skipSpacing ['('] hopen))
  | @conditional _ s _ _ _ _ _ _ _ _ hiif hopen hargs _ hclose ih =>
    have hinside := hargs.length_le (keeps_symbol ",") ih
    have := hskip s
    have := hword hiif
    have := hmark hopen
    have := hmark hclose
    omega
  | @callEmpty _ s _ _ _ _ hname hopen hclose =>
    have := hskip s
    have := keeps_name.length_le hname
    have := hmark hopen
    have := hmark hclose
    omega
  | @call _ s _ _ _ _ _ _ _ hname hopen hargs _ hclose ih =>
    have hinside := hargs.length_le (keeps_symbol ",") ih
    have := hskip s
    have := keeps_name.length_le hname
    have := hmark hopen
    have := hmark hclose
    omega
  | @literal _ s _ _ h => exact Nat.le_trans (keeps_literal.length_le h) (hskip s)
  | @identifier _ s _ _ h => exact Nat.le_trans (keeps_identifier.length_le h) (hskip s)
  | star h => exact hmark h
  | argument _ ih => exact ih
  | chainStop _ => exact Nat.le_refl _
  | chainLink hread _ _ _ ihcomplete ihchain =>
    exact Nat.le_trans ihchain (Nat.le_trans ihcomplete (suffix_of_read? hread).length_le)
  | logical _ ih | compare _ ih | arithmetic _ ih => exact ih
  | isNull => exact Nat.le_refl _
  | inList hopen hlist _ hclose ih =>
    have hinside := hlist.length_le (keeps_symbol ",") ih
    exact Nat.le_trans (hmark hclose) (Nat.le_trans hinside (hmark hopen))
  | between _ hand _ ihlow ihhigh => exact Nat.le_trans ihhigh (Nat.le_trans (hword hand) ihlow)
  | @groupedTables _ s _ _ _ _ hopen _ hclose ih =>
    exact Nat.le_trans (hmark hclose) (Nat.le_trans ih (Nat.le_trans (hmark hopen) (hskip s)))
  | @tableRef _ s _ _ _ _ htable halias =>
    have hkeeps : Keeps (Reader.optional (Reader.optional (keyword "AS") *> tableAlias)) :=
      ((keeps_keyword _).optional.seqRight (keeps_part.satisfying _)).optional
    exact Nat.le_trans (hkeeps.length_le halias)
      (Nat.le_trans (keeps_identifier.length_le htable) (hskip s))
  | joinsStop _ => exact Nat.le_refl _
  | join hread _ hon _ _ ihright ihon ihjoins =>
    have := (suffix_of_readJoin? hread).length_le
    have := hword hon
    omega
  | tables _ _ ihfactor ihjoins => exact Nat.le_trans ihjoins ihfactor
  | itemStar h => exact Nat.le_trans (hskip _) (hmark h)
  | qualifiedStar hparts hstar =>
    exact Nat.le_trans ((keeps_exactly _).length_le hstar) (keeps_parts.length_le hparts)
  | selectItem _ halias ih =>
    exact Nat.le_trans (((keeps_keyword _).seqRight keeps_part).optional.length_le halias) ih
  | orderItem _ horder ih =>
    have hkeeps :
        Keeps ((keyword "ASC" *> pure SortOrder.asc) <|> (keyword "DESC" *> pure .desc)) :=
      ((keeps_keyword _).seqRight (keeps_pure _)).orElse
        ((keeps_keyword _).seqRight (keeps_pure _))
    exact Nat.le_trans (hkeeps.optional.length_le horder) ih
  | select hselect hdistinct _ htop hitems htables hcondition hgroups hhaving horders _ _ _ _ ihitems
      ihtables ihexprs ihorders =>
    have hwords (first second : String) := (keeps_keyword first).seqRight (keeps_keyword second)
    have := hword hselect
    have := (keeps_keyword _).optional.length_le hdistinct
    have := ((keeps_keyword _).seqRight keeps_rowCount).optional.length_le htop
    have := hitems.length_le (keeps_symbol ",") ihitems
    have := htables.length_le (keeps_keyword _) ihtables
    have := hcondition.length_le (keeps_keyword _) ihexprs
    have := hgroups.length_le (hwords _ _) ihexprs
    have := hhaving.length_le (keeps_keyword _) ihexprs
    have := horders.length_le (hwords _ _) ihorders
    omega
  | query _ ih => exact ih
  | crosstab htransform _ _ hpivot _ ihvalue ihselect ihpivot =>
    have := hword htransform
    have := hword hpivot
    omega
  | statement _ _ _ _ => exact Nat.zero_le _

end JetSql.Grammar
