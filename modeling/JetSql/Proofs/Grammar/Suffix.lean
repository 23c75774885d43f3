/-
What a reading leaves is an end of its text.

A miss is placed by the length of the text that made no more sense: what comes before a text of that
length. This is the right place only if that text is an end of the source. `Reader.Keeps` says so of a
reader, whether it succeeds or misses, on every text; and that an error with which it ends the reading
for good is not a complaint about a place, nor an abort but where a Kelvin sign stands in the text.

* **`keeping`:** each combinator keeps to the text if its parts do.
* **`keeps_statement`:** so the whole grammar keeps to the text.
* **`kelvinSign_mem_of_aborted`:** so it aborts on no text without a Kelvin sign.
-/

import JetSql.Proofs.Grammar.Parametric
import JetSql.Proofs.Grammar.Success

namespace JetSql.Grammar

open Reader

variable {α β : Type} {s rest : List Char}

/-- What is left of a text is an end of it. An error that ends the reading has no place, and an abort
is one on a Kelvin sign. -/
def Outcome.Within (s : List Char) : Outcome α → Prop
  | .ok _ rest => rest <:+ s
  | .miss rest _ => rest <:+ s
  | .halt error =>
    (∀ position complaint, error ≠ .grammar position complaint) ∧ (error = .aborted → kelvinSign ∈ s)

theorem Outcome.Within.mono {outcome : Outcome α} (h : outcome.Within rest) (hrest : rest <:+ s) :
    outcome.Within s := by
  cases outcome with
  | ok value left => exact List.IsSuffix.trans h hrest
  | miss left expected => exact List.IsSuffix.trans h hrest
  | halt error => exact ⟨h.1, fun haborted => hrest.subset (h.2 haborted)⟩

/-- Of two misses within a text one is told. -/
theorem Outcome.Within.afterMiss {outcome : Outcome α} (h : outcome.Within s) {left : List Char}
    (hleft : left <:+ s) (expected : Option Expectation) :
    (outcome.afterMiss left expected).Within s := by
  cases outcome with
  | miss left' expected' =>
    change Outcome.Within s (if left'.length < left.length then _ else _)
    split
    · exact h
    · exact hleft
  | ok value rest => exact h
  | halt error => exact h

/-- A reader that leaves an end of every text it is given. -/
def Reader.Keeps (reader : Reader α) : Prop :=
  ∀ s, (reader s).Within s

theorem Reader.Keeps.suffix {reader : Reader α} {value : α} (h : reader.Keeps)
    (hread : reader s = .ok value rest) : rest <:+ s := by
  have hwithin := h s
  rwa [hread] at hwithin

theorem Reader.Keeps.length_le {reader : Reader α} {value : α} (h : reader.Keeps)
    (hread : reader s = .ok value rest) : rest.length ≤ s.length :=
  (h.suffix hread).length_le

/-! ### Combinators -/

section Combinators

variable {reader : Reader α}

theorem keeps_pure (value : α) : Keeps (pure value) := by
  intro s
  exact List.suffix_rfl

theorem Reader.Keeps.bind {next : α → Reader β} (hreader : reader.Keeps)
    (hnext : ∀ value, (next value).Keeps) : Keeps (reader >>= next) := by
  intro s
  have hwithin := hreader s
  rw [bind_apply]
  cases hread : reader s with
  | ok value rest => exact (hnext value rest).mono (hreader.suffix hread)
  | miss left expected => rwa [hread] at hwithin
  | halt error => rwa [hread] at hwithin

theorem Reader.Keeps.seqRight {second : Reader β} (hreader : reader.Keeps)
    (hsecond : second.Keeps) : Keeps (reader *> second) := by
  rw [seqRight_eq_bind]
  exact hreader.bind fun _ => hsecond

theorem Reader.Keeps.orElse {second : Reader α} (hreader : reader.Keeps)
    (hsecond : second.Keeps) : Keeps (reader <|> second) := by
  intro s
  have hwithin := hreader s
  change (Reader.orElse reader (fun _ => second) s).Within s
  unfold Reader.orElse
  cases hread : reader s with
  | ok value rest => rwa [hread] at hwithin
  | miss left expected =>
    rw [hread] at hwithin
    exact (hsecond s).afterMiss hwithin expected
  | halt error => rwa [hread] at hwithin

theorem Reader.Keeps.optional (hreader : reader.Keeps) : Keeps (Reader.optional reader) := by
  intro s
  have hwithin := hreader s
  unfold Reader.optional
  cases hread : reader s with
  | ok value rest => rwa [hread] at hwithin
  | miss left expected => exact List.suffix_rfl
  | halt error => rwa [hread] at hwithin

theorem Reader.Keeps.expecting (hreader : reader.Keeps) (expectation : Expectation) :
    Keeps (Reader.expecting expectation reader) := by
  intro s
  have hwithin := hreader s
  unfold Reader.expecting
  cases hread : reader s with
  | miss left expected =>
    rw [hread] at hwithin
    cases expected <;> exact hwithin
  | ok value rest => rwa [hread] at hwithin
  | halt error => rwa [hread] at hwithin

theorem Reader.Keeps.satisfying (hreader : reader.Keeps) (test : α → Bool) :
    Keeps (Reader.satisfying reader test) := by
  intro s
  have hwithin := hreader s
  unfold Reader.satisfying
  cases hread : reader s with
  | ok value rest =>
    rw [hread] at hwithin
    change Outcome.Within s (if test value = true then _ else _)
    split
    · exact hwithin
    · exact List.suffix_rfl
  | miss left expected => rwa [hread] at hwithin
  | halt error => rwa [hread] at hwithin

theorem keeps_halt {error : Error} (h : error.category ≠ .grammar) :
    Keeps (Reader.halt error : Reader α) := by
  refine fun s => ⟨?_, ?_⟩
  · rintro position complaint rfl
    exact h rfl
  · rintro rfl
    exact absurd rfl h

/-- A limit is not met at a place of the text. -/
theorem keeps_beyondLimit (limit : Nat) :
    Keeps (Reader.halt (beyondLimit limit) : Reader α) :=
  keeps_halt nofun

theorem keeps_char (c : Char) : Keeps (Reader.char c) := by
  intro s
  cases s with
  | nil => exact List.suffix_rfl
  | cons d s =>
    change Outcome.Within _ (if d = c then _ else _)
    split
    · exact List.suffix_cons d s
    · exact List.suffix_rfl

theorem keeps_exactly (fixed : String) : Keeps (exactly fixed) := by
  intro s
  unfold exactly
  cases hdrop : dropText? fixed.toList s with
  | none => exact List.suffix_rfl
  | some rest => exact ⟨fixed.toList, (dropText?_eq_some.mp hdrop).symm⟩

theorem keeps_run1 (p : Char → Bool) : Keeps (run1 p) := by
  intro s
  unfold run1
  split
  · exact List.suffix_rfl
  · exact List.dropWhile_suffix p

theorem keeps_endOfText : Keeps endOfText := by
  intro s
  cases s <;> exact List.suffix_rfl

theorem keeps_furtherItems {separator : Reader Unit} (hseparator : separator.Keeps)
    (hreader : reader.Keeps) (n : Nat) : Keeps (furtherItems separator reader n) := by
  induction n with
  | zero => exact keeps_pure _
  | succ n ih =>
    refine (hseparator.seqRight hreader).optional.bind fun found => ?_
    cases found with
    | none => exact keeps_pure _
    | some value => exact ih.bind fun _ => keeps_pure _

/-- The items after the first one are as many as the text after it allows. -/
theorem keeps_moreItems {separator : Reader Unit} (hseparator : separator.Keeps)
    (hreader : reader.Keeps) (value : α) :
    Keeps fun s => (return value :: (← furtherItems separator reader s.length) : Reader (List α)) s := by
  intro s
  exact ((keeps_furtherItems hseparator hreader s.length).bind fun _ => keeps_pure _) s

theorem Reader.Keeps.separated1 {separator : Reader Unit} (hreader : reader.Keeps)
    (hseparator : separator.Keeps) : Keeps (separated1 separator reader) :=
  hreader.bind fun value => keeps_moreItems hseparator hreader value

theorem Reader.Keeps.separated0 {separator : Reader Unit} (hreader : reader.Keeps)
    (hseparator : separator.Keeps) : Keeps (separated0 separator reader) := by
  refine hreader.optional.bind fun found => ?_
  cases found with
  | none => exact keeps_pure _
  | some value => exact keeps_moreItems hseparator hreader value

/-- The first of some readers keeps to the text if each of them does. -/
theorem keeps_firstOf {readers : List (Reader α)} (hreaders : ∀ reader ∈ readers, reader.Keeps) :
    Keeps (firstOf readers) := by
  intro s
  induction readers with
  | nil => exact List.suffix_rfl
  | cons first readers ih =>
    obtain ⟨hfirst, hreaders⟩ := List.forall_mem_cons.mp hreaders
    have hwithin := hfirst s
    rw [firstOf_cons]
    cases hread : first s with
    | ok value rest => rwa [hread] at hwithin
    | miss left expected => exact ih hreaders
    | halt error => rwa [hread] at hwithin

end Combinators

/-! ### Tokens -/

theorem keeps_spacing : Keeps spacing := by
  intro s
  exact skip_suffix false s

theorem keeps_symbol (mark : String) : Keeps (symbol mark) :=
  keeps_spacing.seqRight (keeps_exactly mark)

/-- The miss of a keyword that runs on into a longer word is placed behind it. -/
theorem keeps_keyword (word : String) : Keeps (keyword word) := by
  intro s
  have hskip : skipSpacing s <:+ s := skip_suffix false s
  unfold keyword
  cases hdrop : dropTextNoCase? word.toList (skipSpacing s) with
  | none =>
    dsimp only
    cases hsplit : splitsCharacter word.toList (skipSpacing s) with
    | true =>
      have hsign : kelvinSign ∈ (skipSpacing s).take word.toList.length := by
        rw [splitsCharacter, Bool.and_eq_true, List.contains_iff_mem] at hsplit
        exact hsplit.2
      exact ⟨nofun, fun _ => hskip.subset (List.mem_of_mem_take hsign)⟩
    | false => exact hskip
  | some rest =>
    obtain ⟨written, hwritten, -⟩ := dropTextNoCase?_eq_some.mp hdrop
    have hrest : rest <:+ s := List.IsSuffix.trans ⟨written, hwritten.symm⟩ hskip
    change Outcome.Within s (if rest.head?.any Text.isWordChar = true then _ else _)
    split
    · exact hrest
    · exact hrest

theorem keeps_word : Keeps Grammar.word := by
  intro s
  cases s with
  | nil => exact List.suffix_rfl
  | cons c s =>
    change Outcome.Within _ (if Text.isWordStart c = true then _ else _)
    split
    · exact List.IsSuffix.trans (List.dropWhile_suffix _) (List.suffix_cons c s)
    · exact List.suffix_rfl

theorem keeps_name : Keeps name :=
  keeps_word.satisfying _

theorem keeps_part : Keeps part := by
  have hbracketed : Keeps bracketedName :=
    (keeps_char '[').bind fun _ => (keeps_run1 _).bind fun _ => (keeps_char ']').bind fun _ =>
      keeps_pure _
  exact keeps_spacing.bind fun _ =>
    (hbracketed.bind fun _ => keeps_pure _).orElse (keeps_name.bind fun _ => keeps_pure _)

theorem keeps_tableAlias : Keeps tableAlias :=
  keeps_part.satisfying _

theorem keeps_parts : Keeps parts :=
  keeps_spacing.bind fun _ => keeps_part.separated1 (keeps_char '.')

theorem keeps_identifier : Keeps identifier :=
  keeps_parts.bind fun _ => keeps_pure _

theorem keeps_stringLiteral (quote : Char) : Keeps (stringLiteral quote) := by
  refine (keeps_char quote).bind fun _ => Reader.Keeps.bind ?_ fun _ =>
    (keeps_char quote).bind fun _ => keeps_pure _
  intro s
  exact ⟨_, Text.splitBody_append quote s⟩

theorem keeps_dateLiteral : Keeps dateLiteral :=
  (keeps_char '#').bind fun _ => (keeps_run1 _).bind fun _ => (keeps_char '#').bind fun _ =>
    keeps_pure _

theorem keeps_numberLiteral : Keeps numberLiteral :=
  (keeps_run1 _).bind fun _ => ((keeps_char '.').seqRight (keeps_run1 _)).optional.bind fun _ =>
    keeps_pure _

theorem keeps_literal : Keeps literal := by
  have hword (word : String) (value : Literal) : Keeps (keyword word *> pure value) :=
    (keeps_keyword word).seqRight (keeps_pure value)
  refine keeps_spacing.bind fun _ => Reader.Keeps.bind ?_ fun _ => keeps_pure _
  exact (keeps_stringLiteral _).orElse <| (keeps_stringLiteral _).orElse <|
    keeps_dateLiteral.orElse <| keeps_numberLiteral.orElse <|
      (hword _ _).orElse <| (hword _ _).orElse (hword _ _)

theorem keeps_rowCount : Keeps rowCount :=
  keeps_spacing.bind fun _ => ((keeps_run1 _).satisfying _).bind fun _ => keeps_pure _

/-! ### Links and joins -/

theorem keeps_read : Keeps Link.read := by
  refine keeps_firstOf ?_
  have hmark (mark : String) (link : Link) : Keeps (symbol mark *> pure link) :=
    (keeps_symbol mark).seqRight (keeps_pure link)
  have hword (word : String) (link : Link) : Keeps (keyword word *> pure link) :=
    (keeps_keyword word).seqRight (keeps_pure link)
  have htwo (first second : String) (link : Link) :
      Keeps (keyword first *> keyword second *> pure link) :=
    ((keeps_keyword first).seqRight (keeps_keyword second)).seqRight (keeps_pure link)
  have hthree (first second third : String) (link : Link) :
      Keeps (keyword first *> keyword second *> keyword third *> pure link) :=
    (((keeps_keyword first).seqRight (keeps_keyword second)).seqRight
      (keeps_keyword third)).seqRight (keeps_pure link)
  simp only [Link.readers, List.forall_mem_cons, List.not_mem_nil, false_imp_iff, implies_true,
    and_true, hmark, hword, htwo, hthree]

theorem keeps_readJoin : Keeps readJoin := by
  refine keeps_firstOf ?_
  have hjoin {γ : Type} {side : Reader γ} (hside : side.Keeps) (kind : JoinKind) :
      Keeps (side *> keyword "JOIN" *> pure kind) :=
    (hside.seqRight (keeps_keyword "JOIN")).seqRight (keeps_pure kind)
  have houter (word : String) : Keeps (keyword word *> optional (keyword "OUTER")) :=
    (keeps_keyword word).seqRight (keeps_keyword "OUTER").optional
  simp only [joinReaders, List.forall_mem_cons, List.not_mem_nil, false_imp_iff, implies_true,
    and_true]
  exact ⟨hjoin (keeps_keyword _) _, hjoin (houter _) _, hjoin (houter _) _⟩

theorem suffix_of_read? {link : Link} (h : Link.read? s = some (link, rest)) : rest <:+ s :=
  keeps_read.suffix (found?_eq_some.mp h)

theorem suffix_of_readJoin? {kind : JoinKind} (h : readJoin? s = some (kind, rest)) : rest <:+ s :=
  keeps_readJoin.suffix (found?_eq_some.mp h)

/-! ### Levels -/

section Levels

variable {limit : Nat}

theorem keeps_leading {below : Option Below}
    (hnot : Keeps (descend limit below fun lower => return Node.not (← lower.operand 4)))
    (hminus : Keeps (descend limit below fun lower => return Node.negate (← lower.operand 10)))
    (hprimary : Keeps (primary limit below)) : Keeps (leading limit below) := by
  refine keeps_spacing.bind fun _ => (keeps_keyword _).optional.bind fun found => ?_
  split
  · exact hnot
  refine (keeps_char _).optional.bind fun found => ?_
  split
  · exact hminus
  · exact hprimary

theorem keeps_climb {below : Option Below} (least : Nat) (left : Node)
    (hlinked : ∀ link : Link,
      Keeps (descend limit below fun lower => link.complete lower left >>= lower.chain least)) :
    Keeps (climb limit below least left) := by
  intro s
  have hwithin := keeps_read s
  unfold climb
  cases hlink : Link.read s with
  | ok found rest =>
    cases found with
    | none => exact List.suffix_rfl
    | some link =>
      change Outcome.Within s (if link.precedence < least then _ else _)
      split
      · exact List.suffix_rfl
      · exact (hlinked link rest).mono (keeps_read.suffix hlink)
  | miss left' expected => exact List.suffix_rfl
  | halt error => rwa [hlink] at hwithin

theorem keeps_joinsOf {below : Option TablesBelow} (left : Node)
    (hjoined : ∀ kind, Keeps (descend limit below fun lower => lower.complete left kind)) :
    Keeps (joinsOf limit below left) := by
  intro s
  have hwithin := keeps_readJoin s
  unfold joinsOf
  cases hjoin : readJoin s with
  | ok found rest =>
    cases found with
    | none => exact List.suffix_rfl
    | some kind => exact (hjoined kind rest).mono (keeps_readJoin.suffix hjoin)
  | miss left' expected => exact List.suffix_rfl
  | halt error => rwa [hjoin] at hwithin

end Levels

/-! ### The grammar -/

/-- Keeping to the text, which the whole grammar hands on. -/
def keeping (limit : Nat) : Parametric limit limit where
  Rel reader _ := reader.Keeps
  pure := keeps_pure
  bind := Reader.Keeps.bind
  orElse := Reader.Keeps.orElse
  optional := Reader.Keeps.optional
  expecting expectation hreader := hreader.expecting expectation
  separated0 hitem := hitem.separated0 (keeps_symbol _)
  separated1 hitem := hitem.separated1 (keeps_symbol _)
  halt := keeps_halt
  stop _ := keeps_beyondLimit limit
  spacing := keeps_spacing
  opening := keeps_char _
  symbol _ := keeps_symbol _
  keyword _ := keeps_keyword _
  name := keeps_name
  part := keeps_part
  tableAlias := keeps_tableAlias
  parts := keeps_parts
  identifier := keeps_identifier
  literal := keeps_literal
  rowCount := keeps_rowCount
  allOf := keeps_exactly _
  endOfText := keeps_endOfText
  leading := keeps_leading
  climb := keeps_climb
  joinsOf := keeps_joinsOf

/-- **The whole grammar keeps to the text.** -/
theorem keeps_statement (limit budget : Nat) : Keeps (statement limit budget) :=
  (keeping limit).statement (Nat.le_refl budget)

/-- **No text without a Kelvin sign aborts the reading.** -/
theorem kelvinSign_mem_of_aborted {limit : Nat} (h : read limit s = .error .aborted) :
    kelvinSign ∈ s := by
  have hwithin := keeps_statement limit (limit - 1) s
  rw [read] at h
  cases hstatement : statement limit (limit - 1) s with
  | halt error =>
    rw [hstatement] at h hwithin
    exact hwithin.2 (Except.error.inj h)
  | _ =>
    rw [hstatement] at h
    cases h

end JetSql.Grammar
