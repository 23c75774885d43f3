/-
Where the reading of a text may abort.

Most readers of tokens end no reading for good, whatever the text (`NeverHalts`). Of the keywords only
`LIKE` has a `K`, and links alone look for it: by itself, and behind `NOT`.

* **`unbroken_of_like`:** looking for a link aborts no reading where `LIKE` can be looked for in both
  places.
-/

import JetSql.Proofs.Grammar.Misses

namespace JetSql.Grammar

open Reader

variable {s rest : List Char}

/-! ### Readers that never halt -/

/-- A reader that ends no reading for good. -/
def Reader.NeverHalts {α : Type} (reader : Reader α) : Prop :=
  ∀ s error, reader s ≠ .halt error

section Combinators

variable {α β : Type} {reader : Reader α}

theorem neverHalts_pure (value : α) : NeverHalts (pure value) := by
  intro s error h
  cases h

/-- One reading after another halts only where one of them does. -/
theorem bind_ne_halt {next : α → Reader β} {error : Error} (hreader : reader s ≠ .halt error)
    (hnext : ∀ value rest, reader s = .ok value rest → next value rest ≠ .halt error) :
    (reader >>= next) s ≠ .halt error := by
  rw [bind_apply]
  cases hread : reader s with
  | ok value rest => exact hnext value rest hread
  | miss left expected => nofun
  | halt error' => simpa [hread] using hreader

theorem Reader.NeverHalts.bind {next : α → Reader β} (hreader : reader.NeverHalts)
    (hnext : ∀ value, (next value).NeverHalts) : NeverHalts (reader >>= next) :=
  fun s error => bind_ne_halt (hreader s error) fun value rest _ => hnext value rest error

theorem Reader.NeverHalts.seqRight {second : Reader β} (hreader : reader.NeverHalts)
    (hsecond : second.NeverHalts) : NeverHalts (reader *> second) := by
  rw [seqRight_eq_bind]
  exact hreader.bind fun _ => hsecond

theorem Reader.NeverHalts.orElse {second : Reader α} (hreader : reader.NeverHalts)
    (hsecond : second.NeverHalts) : NeverHalts (reader <|> second) := by
  intro s error h
  change Reader.orElse reader (fun _ => second) s = _ at h
  rw [Reader.orElse] at h
  cases hread : reader s with
  | ok value rest =>
    rw [hread] at h
    cases h
  | halt error' => exact hreader s error' hread
  | miss left expected =>
    rw [hread] at h
    cases hread' : second s with
    | ok value rest =>
      rw [hread'] at h
      cases h
    | halt error' => exact hsecond s error' hread'
    | miss left' expected' =>
      simp only [hread', Outcome.afterMiss] at h
      split at h <;> cases h

theorem Reader.NeverHalts.optional (hreader : reader.NeverHalts) :
    NeverHalts (Reader.optional reader) := by
  intro s error h
  rw [Reader.optional] at h
  cases hread : reader s with
  | halt error' => exact hreader s error' hread
  | _ =>
    rw [hread] at h
    cases h

theorem Reader.NeverHalts.satisfying (hreader : reader.NeverHalts) (test : α → Bool) :
    NeverHalts (Reader.satisfying reader test) := by
  intro s error h
  rw [Reader.satisfying] at h
  cases hread : reader s with
  | ok value rest =>
    simp only [hread] at h
    split at h <;> cases h
  | miss left expected =>
    rw [hread] at h
    cases h
  | halt error' => exact hreader s error' hread

theorem neverHalts_furtherItems {separator : Reader Unit} (hseparator : separator.NeverHalts)
    (hreader : reader.NeverHalts) (n : Nat) : NeverHalts (furtherItems separator reader n) := by
  induction n with
  | zero => exact neverHalts_pure _
  | succ n ih =>
    refine (hseparator.seqRight hreader).optional.bind fun found => ?_
    cases found with
    | none => exact neverHalts_pure _
    | some value => exact ih.bind fun _ => neverHalts_pure _

/-- Looking for one of several things halts only where looking for one of them does. -/
theorem firstOf_ne_halt {readers : List (Reader α)} {error : Error}
    (h : ∀ reader ∈ readers, reader s ≠ .halt error) : firstOf readers s ≠ .halt error := by
  induction readers with
  | nil => nofun
  | cons first readers ih =>
    obtain ⟨hfirst, hreaders⟩ := List.forall_mem_cons.mp h
    rw [firstOf_cons]
    cases hread : first s with
    | ok value rest => nofun
    | miss left expected => exact ih hreaders
    | halt error' => simpa [hread] using hfirst

end Combinators

theorem neverHalts_char (c : Char) : NeverHalts (Reader.char c) := by
  intro s error h
  rw [Reader.char.eq_def] at h
  cases s with
  | nil => cases h
  | cons d s => by_cases hd : d = c <;> simp [hd] at h

theorem neverHalts_symbol (mark : String) : NeverHalts (symbol mark) := by
  intro s error h
  change exactly mark (skipSpacing s) = _ at h
  rw [exactly] at h
  cases hdrop : dropText? mark.toList (skipSpacing s) <;> simp [hdrop] at h

/-- To look for a keyword halts only where its end would split a character. -/
theorem keyword_ne_halt {word : String}
    (h : splitsCharacter word.toList (skipSpacing s) = false) (error : Error) :
    keyword word s ≠ .halt error := by
  intro hhalt
  rw [keyword, h] at hhalt
  cases hdrop : dropTextNoCase? word.toList (skipSpacing s) with
  | none =>
    rw [hdrop] at hhalt
    cases hhalt
  | some rest =>
    by_cases hrest : rest.head?.any Text.isWordChar = true <;> simp [hdrop, hrest] at hhalt

/-- To look for a keyword aborts the reading where its end would split a character. -/
theorem keyword_eq_halt {word : String} (hword : word.toList.all Char.isUpper = true)
    (h : splitsCharacter word.toList (skipSpacing s) = true) : keyword word s = .halt .aborted := by
  have hnone : dropTextNoCase? word.toList (skipSpacing s) = none := by
    rw [Option.eq_none_iff_forall_ne_some]
    intro rest hrest
    obtain ⟨written, hs, hwritten⟩ := dropTextNoCase?_eq_some.mp hrest
    have hlength : word.toList.length = written.length := by rw [← hwritten, List.length_map]
    rw [splitsCharacter, hs, hlength, List.take_left, Bool.and_eq_true, List.contains_iff_mem] at h
    have hsign := List.all_eq_true.mp hword kelvinSign.toUpper
      (hwritten ▸ List.mem_map_of_mem h.2)
    exact absurd hsign (by decide)
  rw [keyword, hnone, h]
  rfl

theorem neverHalts_keyword {word : String} (hword : isSteady word = true) :
    NeverHalts (keyword word) :=
  fun _ => keyword_ne_halt (splitsCharacter_of_steady hword _)

theorem neverHalts_word : NeverHalts Grammar.word := by
  intro s error h
  rw [Grammar.word.eq_def] at h
  cases s with
  | nil => cases h
  | cons c s => by_cases hc : Text.isWordStart c = true <;> simp [hc] at h

theorem neverHalts_part : NeverHalts part := by
  have hspacing : NeverHalts spacing := fun s error h => by cases h
  have hname : NeverHalts name := neverHalts_word.satisfying fun word => !isReserved word
  have hbody (p : Char → Bool) : NeverHalts (run1 p) := by
    intro s error h
    rw [run1] at h
    split at h <;> cases h
  have hbracketed : NeverHalts bracketedName :=
    (neverHalts_char '[').bind fun _ => (hbody _).bind fun _ => (neverHalts_char ']').bind fun _ =>
      neverHalts_pure _
  exact hspacing.bind fun _ => (hbracketed.bind fun _ => neverHalts_pure _).orElse
    (hname.bind fun _ => neverHalts_pure _)

theorem neverHalts_parts : NeverHalts parts := by
  have hspacing : NeverHalts spacing := fun s error h => by cases h
  refine hspacing.bind fun _ => neverHalts_part.bind fun value s error h => ?_
  exact (neverHalts_furtherItems (neverHalts_char '.') neverHalts_part s.length).bind
    (fun _ => neverHalts_pure _) s error h

/-! ### Links and joins -/

/-- Looking for a link breaks no reading off. -/
def Unbroken (s : List Char) : Prop :=
  ∀ error, Link.read s ≠ .halt error

/-- **Links can be looked for where `LIKE` can be, there and behind `NOT`.** -/
theorem unbroken_of_like (hlike : ∀ error, keyword "LIKE" s ≠ .halt error)
    (hnot : ∀ rest, keyword "NOT" s = .ok () rest → ∀ error, keyword "LIKE" rest ≠ .halt error) :
    Unbroken s := by
  intro error
  have hmark (mark : String) (link : Link) : (symbol mark *> pure link) s ≠ .halt error :=
    (neverHalts_symbol mark).seqRight (neverHalts_pure link) s error
  have hword {word : String} (h : isSteady word = true) (link : Link) :
      (keyword word *> pure link) s ≠ .halt error :=
    (neverHalts_keyword h).seqRight (neverHalts_pure link) s error
  have hwords {first second : String} (hfirst : isSteady first = true)
      (hsecond : isSteady second = true) :=
    (neverHalts_keyword hfirst).seqRight (neverHalts_keyword hsecond)
  have hlikeLink : (keyword "LIKE" *> pure (Link.compare .like)) s ≠ .halt error := by
    rw [seqRight_eq_bind]
    exact bind_ne_halt (hlike error) fun _ _ _ => nofun
  have hnotLike : (keyword "NOT" *> keyword "LIKE" *> pure (Link.compare .notLike)) s ≠
      .halt error := by
    simp only [seqRight_eq_bind, bind_assoc]
    refine bind_ne_halt (neverHalts_keyword (by decide) s error) fun _ rest hread => ?_
    exact bind_ne_halt (hnot rest hread error) fun _ _ _ => nofun
  refine firstOf_ne_halt ?_
  simp only [Link.readers, List.forall_mem_cons, List.not_mem_nil, false_imp_iff, implies_true,
    and_true, ne_eq, hmark, hlikeLink, hnotLike, not_false_eq_true, true_and]
  exact ⟨hword (by decide) _, hword (by decide) _,
    ((hwords (by decide) (by decide)).seqRight (neverHalts_keyword (by decide))).seqRight
      (neverHalts_pure _) s error,
    (hwords (by decide) (by decide)).seqRight (neverHalts_pure _) s error,
    (hwords (by decide) (by decide)).seqRight (neverHalts_pure _) s error,
    hword (by decide) _,
    (hwords (by decide) (by decide)).seqRight (neverHalts_pure _) s error,
    hword (by decide) _, hword (by decide) _⟩

/-- Joins can be looked for anywhere. -/
theorem neverHalts_readJoin : NeverHalts readJoin := by
  intro s error
  have hjoin {γ : Type} {side : Reader γ} (hside : side.NeverHalts) (kind : JoinKind) :
      (side *> keyword "JOIN" *> pure kind) s ≠ .halt error :=
    (hside.seqRight (neverHalts_keyword (by decide))).seqRight (neverHalts_pure kind) s error
  have houter {word : String} (h : isSteady word = true) :
      NeverHalts (keyword word *> optional (keyword "OUTER")) :=
    (neverHalts_keyword h).seqRight (neverHalts_keyword (by decide)).optional
  refine firstOf_ne_halt ?_
  simp only [joinReaders, List.forall_mem_cons, List.not_mem_nil, false_imp_iff, implies_true,
    and_true]
  exact ⟨hjoin (neverHalts_keyword (by decide)) _, hjoin (houter (by decide)) _,
    hjoin (houter (by decide)) _⟩

end JetSql.Grammar
