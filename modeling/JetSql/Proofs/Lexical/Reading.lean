/-
What the readers of tokens take off a text.

`Covers pieces s rest` says that the tokens between two places of a text are written as some pieces.
A reader of names, keywords or literals covers what it hands on: `Reader.Takes` ties the pieces to
the value that is read.

* **`takes_keyword`, `takes_part`, `takes_literal`, …:** the readers of tokens.
* **`covers_link`, `covers_join`:** what stands between operands and between tables.
-/

import JetSql.Proofs.Complete.Front
import JetSql.Proofs.Lexical.Writing

namespace JetSql.Grammar

open Reader

variable {s middle rest : List Char} {pieces pieces' : List Piece}

/-! ### Between two places -/

/-- The tokens from one place in a text to a later one are written as the pieces. -/
def Covers (pieces : List Piece) (s rest : List Char) : Prop :=
  returnsPaired s = true →
    returnsPaired rest = true ∧ ∃ written, Spells pieces written ∧ tokens s = written ++ tokens rest

theorem covers_nil (s : List Char) : Covers [] s s :=
  fun hpaired => ⟨hpaired, [], .nil, rfl⟩

theorem Covers.trans (hfirst : Covers pieces s middle) (hsecond : Covers pieces' middle rest) :
    Covers (pieces ++ pieces') s rest := by
  intro hpaired
  obtain ⟨hpaired, written, hspells, htokens⟩ := hfirst hpaired
  obtain ⟨hpaired, written', hspells', htokens'⟩ := hsecond hpaired
  exact ⟨hpaired, _, hspells.append hspells', by rw [htokens, htokens', List.append_assoc]⟩

theorem covers_skipSpacing (s : List Char) : Covers [] s (skipSpacing s) :=
  fun hpaired => ⟨returnsPaired_of_suffix (skip_suffix false s) hpaired, [], .nil,
    (tokens_skipSpacing hpaired).symm⟩

/-- What is covered behind spacing is covered from before it. -/
theorem Covers.spaced (h : Covers pieces (skipSpacing s) rest) : Covers pieces s rest :=
  (covers_skipSpacing s).trans h

theorem Covers.spaced_of (h : Covers pieces middle rest) (hskip : skipSpacing s = middle) :
    Covers pieces s rest := by
  rw [← hskip] at h
  exact h.spaced

/-- A token at the beginning of a text is covered by a piece that can be written so. -/
theorem covers_token (text : List Char) {token : Token} {piece : Piece} (hfits : piece.Fits [token])
    (htokens : returnsPaired (text ++ rest) = true →
      tokens (text ++ rest) = token :: tokens rest) :
    Covers [piece] (text ++ rest) rest :=
  fun hpaired => ⟨returnsPaired_of_suffix (List.suffix_append ..) hpaired, [token],
    spells_single_iff.mpr hfits, htokens hpaired⟩

/-! ### Readers -/

/-- A reader takes off a text what is written as the pieces of its value. -/
def Reader.Takes {α : Type} (reader : Reader α) (pieces : α → List Piece) : Prop :=
  ∀ s value rest, reader s = .ok value rest → Covers (pieces value) s rest

section Takes

variable {α β : Type} {reader : Reader α} {written : α → List Piece}

theorem Reader.Takes.seqRight {next : Reader β} {writtenNext : β → List Piece}
    (hreader : reader.Takes fun _ => pieces) (hnext : next.Takes writtenNext) :
    Takes (reader *> next) fun value => pieces ++ writtenNext value := by
  intro s value rest h
  obtain ⟨first, middle, hfirst, h⟩ := seqRight_eq_ok.mp h
  exact (hreader s first middle hfirst).trans (hnext middle value rest h)

/-- A reader that hands on a fixed value takes what is written as that value. -/
theorem Reader.Takes.seqRight_pure {value : β} {writtenNext : β → List Piece}
    (hreader : reader.Takes fun _ => writtenNext value) :
    Takes (reader *> pure value) writtenNext := by
  intro s found rest h
  obtain ⟨first, middle, hfirst, h⟩ := seqRight_eq_ok.mp h
  obtain ⟨rfl, rfl⟩ := pure_eq_ok.mp h
  exact hreader s first middle hfirst

theorem Reader.Takes.orElse {second : Reader α} (hreader : reader.Takes written)
    (hsecond : second.Takes written) : Takes (reader <|> second) written := by
  intro s value rest h
  rcases orElse_eq_ok.mp h with h | ⟨-, h⟩
  · exact hreader s value rest h
  · exact hsecond s value rest h

theorem Reader.Takes.satisfying {test : α → Bool} (hreader : reader.Takes written) :
    Takes (Reader.satisfying reader test) written :=
  fun s value rest h => hreader s value rest (satisfying_eq_ok.mp h).1

/-- What may be missing is written as its value, or not at all. -/
theorem Reader.Takes.optional {writtenOption : Option α → List Piece} (hnone : writtenOption none = [])
    (hreader : reader.Takes fun value => writtenOption (some value)) :
    Takes (Reader.optional reader) writtenOption := by
  intro s value rest h
  cases value with
  | none =>
    obtain ⟨-, rfl⟩ := optional_eq_none.mp h
    rw [hnone]
    exact covers_nil s
  | some value => exact hreader s value rest (optional_eq_some.mp h)

/-- A token that may be missing is covered by a piece that may be left out. -/
theorem Reader.Takes.omissible {piece : Piece} (hreader : reader.Takes fun _ => [piece]) :
    Takes (Reader.optional reader) fun _ => [.optional piece] := by
  intro s value rest h hpaired
  cases value with
  | none =>
    obtain ⟨-, rfl⟩ := optional_eq_none.mp h
    exact ⟨hpaired, [], spells_single_iff.mpr (.inl rfl), rfl⟩
  | some value =>
    obtain ⟨hpaired, tokens, hspells, htokens⟩ := hreader s value rest (optional_eq_some.mp h) hpaired
    exact ⟨hpaired, tokens, spells_single_iff.mpr (.inr (spells_single_iff.mp hspells)), htokens⟩

end Takes

/-! ### Keywords and marks -/

theorem takes_keyword {word : String}
    (hword : word.toList ≠ [] ∧ word.toList.all Char.isUpper = true) :
    Takes (keyword word) fun _ => [.keyword word] := by
  intro s value rest h
  obtain ⟨w, hs, hw, hupper, hrest⟩ := exists_word_of_keyword hword h
  have hcovers : Covers [.keyword word] (w ++ rest) rest :=
    covers_token _ ⟨w, rfl, hupper⟩ fun _ => tokens_word hw hrest
  exact hcovers.spaced_of hs

theorem takes_keywords (first second : String)
    (hfirst : first.toList ≠ [] ∧ first.toList.all Char.isUpper = true)
    (hsecond : second.toList ≠ [] ∧ second.toList.all Char.isUpper = true) :
    Takes (keyword first *> keyword second) fun _ => [.keyword first, .keyword second] :=
  (takes_keyword hfirst).seqRight (takes_keyword hsecond)

theorem covers_mark {mark : String} {c : Char} (hmark : mark.toList = [c]) (hc : isMark c = true)
    (hminus : c ≠ '-') (hjoins : ∀ d, rest.head? = some d → joinsMark c d = false) :
    Covers [.mark mark] (c :: rest) rest := by
  have hfits : (Piece.mark mark).Fits [.mark [c]] := by
    rw [← hmark]
    rfl
  exact covers_token [c] hfits fun _ =>
    tokens_mark hc (fun heq => absurd heq hminus) hjoins

/-- A mark that no other character makes longer, and that opens no comment. -/
def standsAlone (c : Char) : Bool :=
  isMark c && "-<>!".toList.all (c != ·)

theorem covers_lone {mark : String} {c : Char} (hmark : mark.toList = [c])
    (hc : standsAlone c = true) (rest : List Char) : Covers [.mark mark] (c :: rest) rest := by
  rw [standsAlone, Bool.and_eq_true, List.all_eq_true] at hc
  have hne (d : Char) (hd : d ∈ "-<>!".toList) : c ≠ d := bne_iff_ne.mp (hc.2 d hd)
  refine covers_mark hmark hc.1 (hne _ (by decide)) fun d _ => ?_
  simp [joinsMark, hne '<' (by decide), hne '>' (by decide), hne '!' (by decide)]

theorem takes_symbol {mark : String} {c : Char} (hmark : mark.toList = [c])
    (hc : standsAlone c = true) : Takes (symbol mark) fun _ => [.mark mark] := by
  intro s value rest h
  have hskip : skipSpacing s = c :: rest := by rw [symbol_eq_ok.mp h, hmark, List.singleton_append]
  exact (covers_lone hmark hc rest).spaced_of hskip

/-- Two minus signs would open a comment, so one is all that is read. -/
theorem covers_minus (h : skipSpacing s = '-' :: rest) : Covers [.mark "-"] s rest := by
  have hcovers : Covers [.mark "-"] ('-' :: rest) rest := by
    refine covers_token ['-'] rfl fun hpaired =>
      tokens_mark (by decide) (fun _ hhead => ?_) fun _ _ => rfl
    have hopens := opensComment_eq_false h
    obtain ⟨after, rfl⟩ := List.head?_eq_some_iff.mp hhead
    have hline : lineEndsWell after = true := lineEndsWell_of_returnsPaired
      (returnsPaired_of_suffix (List.suffix_append ['-', '-'] after) hpaired)
    simp [opensComment, hline] at hopens
  exact hcovers.spaced_of h

theorem takes_longMark {mark : String} {c d : Char} {piece : Piece} (hmark : mark.toList = [c, d])
    (hc : isMark c = true) (hminus : c ≠ '-') (hjoins : joinsMark c d = true)
    (hfits : piece.Fits [.mark [c, d]]) : Takes (symbol mark) fun _ => [piece] := by
  intro s value rest h
  rw [symbol_eq_ok, hmark] at h
  have hcovers : Covers [piece] ([c, d] ++ rest) rest :=
    covers_token _ hfits fun _ => tokens_longMark hc hjoins hminus
  exact hcovers.spaced_of h

/-! ### Names -/

theorem takes_name : Takes name fun callee => [.token (.word callee.toList)] := by
  intro s callee rest h
  obtain ⟨rfl, hname, hrest⟩ := name_eq_ok.mp h
  exact covers_token _ rfl fun _ => tokens_word hname.1 hrest

theorem takes_part : Takes part fun part => [partPiece part] := by
  intro s p rest h
  obtain ⟨hs, hformed, hrest⟩ := part_eq_ok.mp h
  have hcovers : Covers [partPiece p] (p.source ++ rest) rest := by
    obtain ⟨name, _ | _⟩ := p
    · exact covers_token _ rfl fun _ => tokens_word hformed.1 (hrest rfl)
    · refine covers_token _ rfl fun _ => ?_
      simpa [Part.source] using tokens_bracketed hformed.1 rest
  exact hcovers.spaced_of hs

/-- A list is covered by its items with the separators between them. -/
theorem Listed.covers {α : Type} {separator : Reader Unit} {mark : String}
    {item : List Char → α → List Char → Prop} {written : α → List Piece} {values : List α}
    (h : Listed separator item s values rest) (hseparator : separator.Takes fun _ => [.mark mark])
    (hitem : ∀ s value rest, item s value rest → Covers (written value) s rest) :
    Covers (separated mark (values.map written)) s rest := by
  induction h with
  | last h => simpa [separated] using hitem _ _ _ h
  | cons h hsep hlisted ih =>
    obtain ⟨next, values, rfl⟩ := List.exists_cons_of_ne_nil hlisted.ne_nil
    rw [separated_cons]
    exact (hitem _ _ _ h).trans ((hseparator _ _ _ hsep).trans ih)

theorem takes_parts : Takes parts namePieces := by
  intro s names rest h
  obtain ⟨⟨⟩, start, hstart, h⟩ := bind_eq_ok.mp h
  obtain rfl := spacing_eq_ok.mp hstart
  have hpoint : Takes (Reader.char '.') fun _ => [.mark "."] := by
    intro s value rest h
    obtain rfl := char_eq_ok.mp h
    exact covers_lone rfl (by decide) rest
  exact ((listed_of_separated1 h).covers hpoint takes_part).spaced

theorem takes_identifier : Takes identifier Node.pieces := by
  intro s node rest h
  obtain ⟨names, middle, hnames, h⟩ := bind_eq_ok.mp h
  obtain ⟨rfl, rfl⟩ := pure_eq_ok.mp h
  exact takes_parts s names middle hnames

/-- An alias after the word that announces it. -/
theorem takes_alias {α : Type} {opening : Reader α} {named : Reader Part} {announced : Piece}
    (hopening : opening.Takes fun _ => [announced]) (hnamed : named.Takes fun p => [partPiece p]) :
    Takes (Reader.optional (opening *> named)) (aliasPieces announced) :=
  (hopening.seqRight hnamed).optional rfl

theorem takes_itemAlias :
    Takes (Reader.optional (keyword "AS" *> part)) (aliasPieces (.keyword "AS")) :=
  takes_alias (takes_keyword (by decide)) takes_part

theorem takes_tableAlias :
    Takes (Reader.optional (Reader.optional (keyword "AS") *> tableAlias))
      (aliasPieces (.optional (.keyword "AS"))) := by
  have hopening : Takes (keyword "AS") fun _ => [.keyword "AS"] := takes_keyword (by decide)
  have hnamed : tableAlias.Takes fun p => [partPiece p] := takes_part.satisfying
  exact takes_alias hopening.omissible hnamed

/-! ### Choices -/

theorem takes_distinct : Takes (Reader.optional (keyword "DISTINCT")) fun found =>
    if found.isSome then [.keyword "DISTINCT"] else [] :=
  Takes.optional rfl (takes_keyword (by decide))

theorem takes_order :
    Takes (Reader.optional ((keyword "ASC" *> pure SortOrder.asc) <|> (keyword "DESC" *> pure .desc)))
      orderPieces := by
  have hword (order : SortOrder) (hupper : order.symbol.toList ≠ [] ∧
      order.symbol.toList.all Char.isUpper = true) :
      Takes (keyword order.symbol *> pure order) fun order => [.keyword order.symbol] :=
    Takes.seqRight_pure (takes_keyword hupper)
  exact Takes.optional rfl ((hword .asc (by decide)).orElse (hword .desc (by decide)))

/-! ### Literals -/

theorem takes_stringLiteral {quote : Char} (hquote : quote = '\'' ∨ quote = '"') :
    Takes (stringLiteral quote) fun value => [literalPiece value] := by
  intro s value rest h
  obtain ⟨body, rfl, rfl, hpaired, hrest⟩ := stringLiteral_eq_ok.mp h
  have htokens := tokens_string hquote hpaired hrest
  have hcovers : Covers [.token (.string quote body)] (quote :: (body ++ [quote]) ++ rest) rest :=
    covers_token _ rfl fun _ => by simpa using htokens
  simpa [literalPiece] using hcovers

theorem takes_dateLiteral : Takes dateLiteral fun value => [literalPiece value] := by
  intro s value rest h
  obtain ⟨body, rfl, rfl, hbody, -⟩ := dateLiteral_eq_ok.mp h
  have htokens := tokens_date hbody rest
  have hfits : (Piece.date (String.ofList (Text.trim body))).Fits [.date body] :=
    ⟨body, rfl, by simp⟩
  have hcovers : Covers [.date (String.ofList (Text.trim body))] ('#' :: (body ++ ['#']) ++ rest) rest :=
    covers_token _ hfits fun _ => by simpa using htokens
  simpa [literalPiece] using hcovers

/-- A number is read up to where its token ends. -/
theorem takes_numberLiteral : Takes numberLiteral fun value => [literalPiece value] := by
  intro s value rest h
  simp only [numberLiteral, bind_eq_ok, run1_eq_ok, pure_eq_ok] at h
  obtain ⟨digits, middle, ⟨⟨rfl, hdigits, hstop⟩, hne⟩, fraction, _, hfraction, rfl, rfl⟩ := h
  have htokens := tokens_number hne hdigits hstop
  cases fraction with
  | none =>
    obtain ⟨hmisses, rfl⟩ := optional_eq_none.mp hfraction
    have hnone (after : List Char) (hpoint : middle = '.' :: after) :
        after.head?.any Char.isDigit = false := by
      simpa [hpoint] using hmisses
    rw [splitDecimals_of_none hnone, List.append_nil] at htokens
    exact covers_token _ (by simp [literalPiece, Piece.Fits]) fun _ => htokens
  | some decimals =>
    simp only [optional_eq_some, seqRight_eq_ok, char_eq_ok, run1_eq_ok] at hfraction
    obtain ⟨⟨⟩, after, rfl, ⟨hafter, hdecimals, hend⟩, hne'⟩ := hfraction
    obtain ⟨htake, hdrop⟩ := takeWhile_eq_and_dropWhile_eq_iff.mpr ⟨hafter, hdecimals, hend⟩
    have hdigit : after.head?.any Char.isDigit = true := by
      cases decimals with
      | nil => exact absurd rfl hne'
      | cons c decimals =>
        rw [List.all_cons, Bool.and_eq_true] at hdecimals
        rw [hafter]
        exact hdecimals.1
    rw [splitDecimals_of_point hdigit, htake, hdrop] at htokens
    have hcovers : Covers [.token (.number (digits ++ '.' :: decimals))]
        (digits ++ '.' :: decimals ++ _) _ :=
      covers_token _ rfl fun _ => by rwa [List.append_assoc, List.cons_append, ← hafter]
    rw [List.append_assoc, List.cons_append, ← hafter] at hcovers
    simpa [literalPiece] using hcovers

theorem takes_literal : Takes literal Node.pieces := by
  intro s node rest h
  obtain ⟨⟨⟩, start, hstart, h⟩ := bind_eq_ok.mp h
  obtain rfl := spacing_eq_ok.mp hstart
  obtain ⟨value, middle, hvalue, h⟩ := bind_eq_ok.mp h
  obtain ⟨rfl, rfl⟩ := pure_eq_ok.mp h
  have hword (word : String) (value : Literal) (hupper : word.toList ≠ [] ∧
      word.toList.all Char.isUpper = true) (hpiece : literalPiece value = .keyword word) :
      Takes (keyword word *> pure value) fun value => [literalPiece value] :=
    Takes.seqRight_pure (by rw [hpiece]; exact takes_keyword hupper)
  have htakes := (takes_stringLiteral (.inl rfl)).orElse <|
    (takes_stringLiteral (.inr rfl)).orElse <| takes_dateLiteral.orElse <|
    takes_numberLiteral.orElse <| (hword "TRUE" (.bool true) (by decide) rfl).orElse <|
    (hword "FALSE" (.bool false) (by decide) rfl).orElse <| hword "NULL" .null (by decide) rfl
  exact (htakes _ value middle hvalue).spaced

/-! ### Row counts -/

/-- A digit is the whole numeral of its value. -/
theorem toDigits_digit {c : Char} (h : c.isDigit = true) :
    c.toNat - '0'.toNat < 10 ∧ Nat.toDigits 10 (c.toNat - '0'.toNat) = [c] := by
  simp only [Char.isDigit, ge_iff_le, Bool.and_eq_true, decide_eq_true_eq,
    UInt32.le_iff_toNat_le] at h
  have hle : '0'.toNat ≤ c.toNat ∧ c.toNat ≤ '0'.toNat + 9 := h
  have hlt : c.toNat - '0'.toNat < 10 := by omega
  refine ⟨hlt, ?_⟩
  rw [Nat.toDigits_of_lt_base hlt, List.cons.injEq, ← Char.toNat_inj,
    Nat.toNat_digitChar_of_lt_ten hlt]
  exact ⟨Nat.add_sub_cancel' hle.1, rfl⟩

/-- Digits after a numeral that is not zero go on with it. -/
theorem toDigits_foldl {value : Nat} {digits : List Char} (hvalue : 0 < value)
    (hdigits : digits.all Char.isDigit = true) :
    Nat.toDigits 10 (digits.foldl (fun value digit => 10 * value + (digit.toNat - '0'.toNat)) value) =
      Nat.toDigits 10 value ++ digits := by
  induction digits generalizing value with
  | nil => simp
  | cons c digits ih =>
    rw [List.all_cons, Bool.and_eq_true] at hdigits
    obtain ⟨hlt, hc⟩ := toDigits_digit hdigits.1
    rw [List.foldl_cons, ih (by omega) hdigits.2,
      ← Nat.toDigits_append_toDigits (by decide) hvalue hlt, hc, List.append_assoc,
      List.singleton_append]

/-- Digits are the numeral of their value behind zeros. -/
theorem exists_zeros {digits : List Char} (hne : digits ≠ [])
    (hdigits : digits.all Char.isDigit = true) :
    ∃ zeros, digits =
      List.replicate zeros '0' ++ Nat.toDigits 10 (rowCount.digitsValue digits) := by
  induction digits with
  | nil => exact absurd rfl hne
  | cons c digits ih =>
    rw [List.all_cons, Bool.and_eq_true] at hdigits
    obtain ⟨hlt, hc⟩ := toDigits_digit hdigits.1
    by_cases hzero : c = '0'
    · subst hzero
      by_cases hnil : digits = []
      · subst hnil
        exact ⟨0, rfl⟩
      · obtain ⟨zeros, hzeros⟩ := ih hnil hdigits.2
        refine ⟨zeros + 1, ?_⟩
        rw [List.replicate_succ, List.cons_append]
        exact congrArg _ hzeros
    · refine ⟨0, ?_⟩
      have hvalue : 0 < c.toNat - '0'.toNat := by
        refine Nat.pos_of_ne_zero fun hvalue => hzero ?_
        rw [hvalue, Nat.toDigits_zero] at hc
        exact (List.cons.inj hc).1.symm
      rw [rowCount.digitsValue, List.foldl_cons, Nat.mul_zero, Nat.zero_add,
        toDigits_foldl hvalue hdigits.2, hc]
      rfl

/-- A row count is a whole token unless a point stands behind it. -/
theorem covers_rowCount {rows : Nat} (h : rowCount s = .ok rows rest)
    (hpoint : rest.head? ≠ some '.') : Covers [.rowCount rows] s rest := by
  simp only [rowCount, bind_eq_ok, spacing_eq_ok, satisfying_eq_ok, run1_eq_ok, pure_eq_ok] at h
  obtain ⟨⟨⟩, _, rfl, digits, _, ⟨⟨⟨hs, hdigits, hstop⟩, hne⟩, -⟩, rfl, rfl⟩ := h
  obtain ⟨zeros, hzeros⟩ := exists_zeros hne hdigits
  have htokens := tokens_number hne hdigits hstop
  rw [splitDecimals_of_none (by rintro after rfl; exact absurd rfl hpoint), List.append_nil] at htokens
  have hcovers : Covers [.rowCount (rowCount.digitsValue digits)] (digits ++ _) _ :=
    covers_token _ ⟨zeros, by rw [← hzeros]⟩ fun _ => htokens
  exact hcovers.spaced_of hs

/-! ### Links and joins -/

/-- A sign is read only where no longer one stands. -/
theorem joinsMark_eq_false_of_read? {op : CompareOp} {c d : Char}
    (hop : op = .lt ∧ c = '<' ∨ op = .gt ∧ c = '>') (hskip : skipSpacing s = c :: rest)
    (h : Link.read? s = some (.compare op, rest)) (hd : rest.head? = some d) :
    joinsMark c d = false := by
  rw [← Bool.not_eq_true]
  intro hjoins
  obtain ⟨after, rfl⟩ := List.head?_eq_some_iff.mp hd
  have hlonger : ∃ reader ∈ Link.readers.take 6, ∃ link stop, reader s = .ok link stop := by
    have hread {mark : String} (link : Link) (hmark : mark.toList = [c, d]) :
        (symbol mark *> pure link) s = .ok link after :=
      seqRight_eq_ok.mpr ⟨(), after, symbol_eq_ok.mpr (by rw [hskip, hmark]; rfl), rfl⟩
    rcases hop with ⟨-, rfl⟩ | ⟨-, rfl⟩
    · have hcases : d = '>' ∨ d = '=' := by simpa [joinsMark] using hjoins
      rcases hcases with rfl | rfl
      · exact ⟨symbol "<>" *> pure (.compare .ne), by simp [Link.readers], _, _, hread _ rfl⟩
      · exact ⟨symbol "<=" *> pure (.compare .lte), by simp [Link.readers], _, _, hread _ rfl⟩
    · obtain rfl : d = '=' := by simpa [joinsMark] using hjoins
      exact ⟨symbol ">=" *> pure (.compare .gte), by simp [Link.readers], _, _, hread _ rfl⟩
  have hothers : ∀ reader ∈ Link.readers.take 6, reader s ≠ .ok (.compare op) (d :: after) := by
    rcases hop with ⟨rfl, -⟩ | ⟨rfl, -⟩ <;> simp [Link.readers]
  obtain ⟨reader, hmem, link, stop, hreader⟩ := hlonger
  have hsplit : (firstOf (Link.readers.take 6 ++ Link.readers.drop 6) s).found? =
      some (.compare op, _) := h
  obtain ⟨first, hfirst, hread⟩ := exists_of_firstOf_append hmem hreader hsplit
  exact hothers first hfirst hread

theorem covers_sign {op : CompareOp} {c : Char} {mark : String} {link : Link}
    (hop : op = .lt ∧ c = '<' ∨ op = .gt ∧ c = '>') (hmark : mark.toList = [c])
    (hpieces : comparePieces op = [.mark mark]) (h : Link.read? s = some (link, rest))
    (hread : (symbol mark *> pure (.compare op)) s = .ok link rest) :
    Covers link.pieces s rest := by
  obtain ⟨_, middle, hsymbol, hlink⟩ := seqRight_eq_ok.mp hread
  obtain ⟨rfl, rfl⟩ := pure_eq_ok.mp hlink
  have hskip : skipSpacing s = c :: middle := by
    rw [symbol_eq_ok.mp hsymbol, hmark, List.singleton_append]
  have hc : isMark c = true ∧ c ≠ '-' := by
    rcases hop with ⟨-, rfl⟩ | ⟨-, rfl⟩ <;> exact ⟨by decide, by decide⟩
  have hcovers := covers_mark hmark hc.1 hc.2 fun d => joinsMark_eq_false_of_read? hop hskip h
  rw [← hpieces] at hcovers
  exact hcovers.spaced_of hskip

/-- The readers of links take what is written as the link. Only the signs that may be the beginning
of something longer depend on what follows them. -/
theorem takes_links : ∀ reader ∈ Link.readers, reader.Takes Link.pieces ∨
    reader = symbol "<" *> pure (.compare .lt) ∨ reader = symbol ">" *> pure (.compare .gt) ∨
    reader = symbol "-" *> pure (.arithmetic .sub) := by
  have hlong {mark : String} {c d : Char} {piece : Piece} (hmark : mark.toList = [c, d])
      (hmarks : isMark c = true ∧ c ≠ '-' ∧ joinsMark c d = true) (hfits : piece.Fits [.mark [c, d]]) :
      Takes (symbol mark) fun _ => [piece] :=
    takes_longMark hmark hmarks.1 hmarks.2.1 hmarks.2.2 hfits
  have hnull : Takes (keyword "NULL") fun _ => [.keyword "NULL"] := takes_keyword (by decide)
  have hnot := (takes_keywords "IS" "NOT" (by decide) (by decide)).seqRight hnull
  simp only [Link.readers, List.forall_mem_cons, List.not_mem_nil, false_imp_iff, implies_true,
    and_true]
  refine ⟨?_, ?_, ?_, ?_, ?_, ?_, .inr (.inl trivial), .inr (.inr (.inl trivial)), ?_, ?_, ?_,
    .inl (Takes.seqRight_pure hnot), ?_, ?_, ?_, ?_, ?_, ?_, ?_, .inr (.inr (.inr trivial)), ?_, ?_,
    ?_, ?_⟩
  all_goals
    first
    | exact .inl (Takes.seqRight_pure (takes_keyword (by decide)))
    | exact .inl (Takes.seqRight_pure (takes_symbol rfl (by decide)))
    | exact .inl (Takes.seqRight_pure (takes_keywords _ _ (by decide) (by decide)))
    | exact .inl (Takes.seqRight_pure (hlong rfl (by decide) (.inl rfl)))
    | exact .inl (Takes.seqRight_pure (hlong rfl (by decide) (.inr rfl)))
    | exact .inl (Takes.seqRight_pure (hlong rfl (by decide) rfl))

/-- The words and the sign of a link are taken as a whole. -/
theorem covers_link {link : Link} (h : Link.read? s = some (link, rest)) :
    Covers link.pieces s rest := by
  obtain ⟨reader, hmem, hread⟩ := exists_of_firstOf_eq_some h
  rcases takes_links reader hmem with htakes | rfl | rfl | rfl
  · exact htakes s link rest hread
  · exact covers_sign (.inl ⟨rfl, rfl⟩) rfl rfl h hread
  · exact covers_sign (.inr ⟨rfl, rfl⟩) rfl rfl h hread
  · obtain ⟨_, middle, hminus, hlink⟩ := seqRight_eq_ok.mp hread
    obtain ⟨rfl, rfl⟩ := pure_eq_ok.mp hlink
    exact covers_minus (symbol_eq_ok.mp hminus)

/-- The words of a join are taken. -/
theorem covers_join {kind : JoinKind} (h : readJoin? s = some (kind, rest)) :
    Covers (joinPieces kind) s rest := by
  have htakes : ∀ reader ∈ joinReaders, reader.Takes joinPieces := by
    have houter (word : String) (kind : JoinKind)
        (hword : word.toList ≠ [] ∧ word.toList.all Char.isUpper = true)
        (hpieces : joinPieces kind = [.keyword word, .optional (.keyword "OUTER"), .keyword "JOIN"]) :
        Takes (keyword word *> Reader.optional (keyword "OUTER") *> keyword "JOIN" *> pure kind)
          joinPieces := by
      refine Takes.seqRight_pure ?_
      rw [hpieces]
      exact ((takes_keyword hword).seqRight (takes_keyword (by decide)).omissible).seqRight
        (takes_keyword (by decide))
    simp only [joinReaders, List.forall_mem_cons, List.not_mem_nil, false_imp_iff, implies_true,
      and_true]
    have hinner : Takes (keyword "INNER" *> keyword "JOIN" *> pure .inner) joinPieces :=
      Takes.seqRight_pure (takes_keywords "INNER" "JOIN" (by decide) (by decide))
    exact ⟨hinner,
      houter "LEFT" .left (by decide) rfl, houter "RIGHT" .right (by decide) rfl⟩
  obtain ⟨reader, hmem, hread⟩ := exists_of_firstOf_eq_some h
  exact htakes reader hmem s kind rest hread

end JetSql.Grammar
