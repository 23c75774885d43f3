/-
The layout of a text carries no meaning.

The grammar is put together from readers of tokens, which do not see how a text is laid out, and
from combinators, which hand this on. A budget is no part of the text, so the same levels are spent.
What is left is the scan, which looks at the characters by itself: without carriage returns its
comments are those of the grammar, and it lets through what the grammar reads.

* **`blind_statement`:** the reader of statements comes to the same however a text is laid out.
* **`parse_of_relaid`:** a text that is parsed and laid out anew is parsed as the same tree.
-/

import JetSql.Proofs.Layout.Blind
import Mathlib

namespace JetSql.Grammar

open Reader

variable {s s' : List Char}

/-! ### Links and joins -/

theorem blind_readLink : Blind Link.read := by
  refine Reader.Blind.firstOf ?_
  have hmark (mark : String) (link : Link)
      (hmark : mark.toList.all isLone = true ∧ '-' ∉ mark.toList.tail) :
      Blind (symbol mark *> pure link) :=
    (blind_symbol hmark).seqRight (blind_pure link)
  have htwo (first second : String) (link : Link)
      (hfirst : first.toList ≠ [] ∧ first.toList.all Char.isUpper = true)
      (hsecond : second.toList ≠ [] ∧ second.toList.all Char.isUpper = true) :
      Blind (keyword first *> keyword second *> pure link) :=
    ((blind_keyword hfirst).seqRight (blind_keyword hsecond)).seqRight
      (blind_pure link)
  have hthree (first second third : String) (link : Link)
      (hfirst : first.toList ≠ [] ∧ first.toList.all Char.isUpper = true)
      (hsecond : second.toList ≠ [] ∧ second.toList.all Char.isUpper = true)
      (hthird : third.toList ≠ [] ∧ third.toList.all Char.isUpper = true) :
      Blind (keyword first *> keyword second *> keyword third *> pure link) :=
    (((blind_keyword hfirst).seqRight (blind_keyword hsecond)).seqRight
      (blind_keyword hthird)).seqRight (blind_pure link)
  simp (disch := decide) only [Link.readers, List.forall_mem_cons, List.not_mem_nil, false_imp_iff,
    implies_true, and_true, hmark, blind_word, htwo, hthree]

theorem blind_readJoin : Blind readJoin := by
  refine Reader.Blind.firstOf ?_
  have hjoin {α : Type} {side : Reader α} (hside : side.Blind) (kind : JoinKind) :
      Blind (side *> keyword "JOIN" *> pure kind) :=
    (hside.seqRight (blind_keyword (by decide))).seqRight (blind_pure kind)
  have houter (word : String) (hword : word.toList ≠ [] ∧ word.toList.all Char.isUpper = true) :
      Blind (keyword word *> optional (keyword "OUTER")) :=
    (blind_keyword hword).seqRight (blind_keyword (by decide)).optional
  simp only [joinReaders, List.forall_mem_cons, List.not_mem_nil, false_imp_iff, implies_true,
    and_true]
  exact ⟨hjoin (blind_keyword (by decide)) _, hjoin (houter _ (by decide)) _,
    hjoin (houter _ (by decide)) _⟩

/-! ### Levels -/

section Levels

variable {limit : Nat}

/-- A leading minus sign is looked for behind the spacing, where it opens no comment. -/
theorem blind_leading {below : Option Below}
    (hnot : Blind (descend limit below fun lower => return Node.not (← lower.operand 4)))
    (hminus : Blind (descend limit below fun lower => return Node.negate (← lower.operand 10)))
    (hprimary : Blind (primary limit below)) : Blind (leading limit below) := by
  intro s s' h
  refine agrees_bind (blind_spacing h) fun _ start start' hskip _ hskipped => ?_
  have htight : tight start = true := h.tight_of_spacing hskip
  refine agrees_bind ((blind_keyword (by decide)).optional hskipped) ?_
  intro negated rest rest' hnegated _ hrest
  cases negated with
  | some => exact hnot hrest
  | none =>
    -- The reader of `NOT` has left the text as it was, so it is still tight.
    obtain ⟨-, rfl⟩ := optional_eq_none.mp hnegated
    refine agrees_bind (agrees_optional hrest (agrees_char hrest (by decide) fun _ => htight)) ?_
    intro minus rest rest' _ _ hrest
    cases minus with
    | some => exact hminus hrest
    | none => exact hprimary hrest

/-- Where no link is taken, the text is left as it was before one was looked for. -/
theorem blind_climb {below : Option Below} (least : Nat) (left : Node)
    (hlinked : ∀ link : Link,
      Blind (descend limit below fun lower => link.complete lower left >>= lower.chain least)) :
    Blind (climb limit below least left) := by
  intro s s' h
  have hlink := blind_readLink h
  rw [climb, climb]
  generalize Link.read s = outcome at hlink ⊢
  generalize Link.read s' = outcome' at hlink ⊢
  cases hlink with
  | @ok found _ _ hrest =>
    cases found with
    | none => exact .ok left h
    | some link =>
      by_cases hleast : link.precedence < least
      · simp only [hleast, if_true]
        exact .ok left h
      · simp only [hleast, if_false]
        exact hlinked link hrest
  | miss => exact .ok left h
  | halt error => exact .halt error

theorem blind_joinsOf {below : Option TablesBelow} (left : Node)
    (hjoined : ∀ kind, Blind (descend limit below fun lower => lower.complete left kind)) :
    Blind (joinsOf limit below left) := by
  intro s s' h
  have hjoin := blind_readJoin h
  rw [joinsOf, joinsOf]
  generalize readJoin s = outcome at hjoin ⊢
  generalize readJoin s' = outcome' at hjoin ⊢
  cases hjoin with
  | @ok found _ _ hrest =>
    cases found with
    | none => exact .ok left h
    | some kind => exact hjoined kind hrest
  | miss => exact .ok left h
  | halt error => exact .halt error

end Levels

/-! ### The grammar -/

/-- Reading blindly and keeping to the text, which the whole grammar hands on. A list is read blindly
because its items keep to the text. -/
def blinding (limit : Nat) : Parametric limit limit where
  Rel reader _ := reader.Blind ∧ reader.Keeps
  pure value := ⟨blind_pure value, keeps_pure value⟩
  bind hreader hnext :=
    ⟨hreader.1.bind fun value => (hnext value).1, hreader.2.bind fun value => (hnext value).2⟩
  orElse hfirst hsecond := ⟨hfirst.1.orElse hsecond.1, hfirst.2.orElse hsecond.2⟩
  optional hreader := ⟨hreader.1.optional, hreader.2.optional⟩
  expecting expectation hreader := ⟨hreader.1.expecting expectation, hreader.2.expecting expectation⟩
  separated0 hitem :=
    ⟨hitem.1.separated0 hitem.2 separates_comma, hitem.2.separated0 (keeps_symbol _)⟩
  separated1 hitem :=
    ⟨hitem.1.separated1 hitem.2 separates_comma, hitem.2.separated1 (keeps_symbol _)⟩
  halt herror := ⟨blind_halt _, keeps_halt herror⟩
  stop _ := ⟨blind_halt _, keeps_beyondLimit limit⟩
  spacing := ⟨blind_spacing, keeps_spacing⟩
  opening := ⟨blind_char (by decide) (by decide), keeps_char _⟩
  symbol {mark} hmark := by
    have hlone : ∀ mark ∈ marks, mark.toList.all isLone = true ∧ '-' ∉ mark.toList.tail := by
      decide
    exact ⟨blind_symbol (hlone mark hmark), keeps_symbol mark⟩
  keyword hword := ⟨blind_keyword hword, keeps_keyword _⟩
  name := ⟨blind_name, keeps_name⟩
  part := ⟨blind_part, keeps_part⟩
  tableAlias := ⟨blind_tableAlias, keeps_tableAlias⟩
  parts := ⟨blind_parts, keeps_parts⟩
  identifier := ⟨blind_identifier, keeps_identifier⟩
  literal := ⟨blind_literal, keeps_literal⟩
  rowCount := ⟨blind_rowCount, keeps_rowCount⟩
  allOf := ⟨blind_exactly (by decide) (by decide), keeps_exactly _⟩
  endOfText := ⟨blind_endOfText, keeps_endOfText⟩
  leading hnot hminus hprimary :=
    ⟨blind_leading hnot.1 hminus.1 hprimary.1, keeps_leading hnot.2 hminus.2 hprimary.2⟩
  climb least left hlinked :=
    ⟨blind_climb least left fun link => (hlinked link).1,
      keeps_climb least left fun link => (hlinked link).2⟩
  joinsOf left hjoined :=
    ⟨blind_joinsOf left fun kind => (hjoined kind).1,
      keeps_joinsOf left fun kind => (hjoined kind).2⟩

/-- **A statement is read the same however it is laid out.** -/
theorem blind_statement (limit budget : Nat) : Blind (statement limit budget) := by
  have h : Blind (statement limit budget) ∧ Keeps (statement limit budget) :=
    (blinding limit).statement (Nat.le_refl budget)
  exact h.1

/-- The grammar reads the same tree from a text that is laid out anew. -/
theorem read_of_alike {limit : Nat} {node : Node} (h : Alike s s')
    (hread : read limit s = .ok node) :
    read limit s' = .ok node := by
  have hagrees := blind_statement limit (limit - 1) h
  rw [read] at hread ⊢
  generalize statement limit (limit - 1) s = outcome at hagrees hread
  generalize statement limit (limit - 1) s' = outcome' at hagrees ⊢
  cases hagrees with
  | ok value => exact hread
  | miss => cases hread
  | halt error => cases hread

end JetSql.Grammar

namespace JetSql

open Grammar

/-- **A text without carriage returns that is parsed, and whose spacing and whose case of reserved
words are changed, is parsed as the same tree at the same limit.** -/
theorem parse_of_relaid {source source' : String} {limit : Nat} {tree : Node}
    (hreturns : '\r' ∉ source.toList) (hlayout : Relaid source.toList source'.toList)
    (h : parse source limit = .ok tree) : parse source' limit = .ok tree := by
  have hread := read_of_alike ⟨hlayout, hreturns⟩ (read_of_parse h)
  have hcomments : CommentsEndWell source'.toList :=
    commentsEndWell_of_returnsPaired none (returnsPaired_of_not_mem (hlayout.not_mem hreturns))
  have hdepth := nestingDepth_le_of_read (.inr hcomments) hread
  rw [parse, if_neg (by omega), hread]

/-- `SELECT 'a  b' FROM t`. -/
def literalOfTable : Node :=
  .query ⟨false, none, [.selectItem (.string "a  b") none], [.tableRef (.name "t") none], none, [],
    none, []⟩

/-- Comments that hold a quote and a parenthesis, and a literal whose blanks are its own. -/
theorem parse_of_relaid_comments :
    '\r' ∉ "SELECT 'a  b'--'(\nFROM t".toList ∧
      Relaid "SELECT 'a  b'--'(\nFROM t".toList "select\n--)'\n\t'a  b' From t".toList ∧
      parse "SELECT 'a  b'--'(\nFROM t" 3 = .ok literalOfTable ∧
      parse "select\n--)'\n\t'a  b' From t" 3 = .ok literalOfTable := by
  have hreturns : '\r' ∉ "SELECT 'a  b'--'(\nFROM t".toList := by decide
  have htable : Relaid " t".toList " t".toList := .kept _
  have hfrom : Relaid "FROM t".toList "From t".toList :=
    @Relaid.word "FROM".toList "From".toList _ _ (by decide) (by decide)
      (.inr ⟨by cbv, by decide⟩) htable
  have hcomment : Relaid "--'(\nFROM t".toList " From t".toList :=
    @Relaid.spacing "--'(\n".toList " ".toList _ _
      (.closed (@Spaced.comment "'(".toList [] (by decide) .nil) (by decide) (by decide))
      (.inr (.intro (by decide) .nil)) hfrom
  have hliteral : Relaid "'a  b'--'(\nFROM t".toList "'a  b' From t".toList :=
    .verbatim (@Verbatim.string '\'' "a  b".toList _ (.inl rfl) (by decide) (by decide)) hcomment
  have hgap : Relaid " 'a  b'--'(\nFROM t".toList "\n--)'\n\t'a  b' From t".toList :=
    @Relaid.spacing " ".toList "\n--)'\n\t".toList _ _
      (.closed (.blank (by decide) .nil) (by decide) (by decide))
      (.inr (.intro (by decide)
        (@Spaced.comment ")'".toList "\t".toList (by decide) (.blank (by decide) .nil)))) hliteral
  have hlayout : Relaid "SELECT 'a  b'--'(\nFROM t".toList
      "select\n--)'\n\t'a  b' From t".toList :=
    @Relaid.word "SELECT".toList "select".toList _ _ (by decide) (by decide)
      (.inr ⟨by cbv, by decide⟩) hgap
  have hparse : parse "SELECT 'a  b'--'(\nFROM t" 3 = .ok literalOfTable := by cbv
  exact ⟨hreturns, hlayout, hparse, parse_of_relaid hreturns hlayout hparse⟩

end JetSql

