/-
The limit of a reading only ever cuts it short.

The same text is read under two budgets, and the smaller one either ends the reading with the error of
its limit or makes no difference at all. A budget is met in `descend` alone, so it is enough that every
combinator hands this on (`cutting`): that what is cut short is never taken for a miss, after which
another reading would be tried.

* **`cut_read`:** reading under a smaller limit is cut short or comes to the same tree or error.
* **`limitedTo_parse`:** and so is parsing, whose errors tell of the smaller limit and a depth beyond
  it.
-/

import JetSql.Proofs.Grammar.Parametric

namespace JetSql

/-- A result under a bound, and without it: it is the stop that the bound makes, or no different. -/
def Cut {α : Type} (stop small large : α) : Prop :=
  small = stop ∨ small = large

namespace Grammar

open Reader

/-- A reader under a smaller limit: wherever it does not end for that limit, it reads the same. -/
def Reader.Cut {α : Type} (limit : Nat) (small large : Reader α) : Prop :=
  ∀ s, JetSql.Cut (.halt (beyondLimit limit)) (small s) (large s)

variable {limit limit' : Nat}

/-! ### Combinators -/

section Combinators

variable {α β : Type} {small large : Reader α}

theorem Reader.cut_self (reader : Reader α) : Reader.Cut limit reader reader :=
  fun _ => .inr rfl

theorem Reader.Cut.bind {next next' : α → Reader β} (hreader : Reader.Cut limit small large)
    (hnext : ∀ value, Reader.Cut limit (next value) (next' value)) :
    Reader.Cut limit (small >>= next) (large >>= next') := by
  intro s
  rw [bind_apply, bind_apply]
  rcases hreader s with hstop | hsame
  · rw [hstop]
    exact .inl rfl
  · rw [hsame]
    cases large s with
    | ok value rest => exact hnext value rest
    | miss rest expected => exact .inr rfl
    | halt error => exact .inr rfl

theorem Reader.Cut.seqRight (first : Reader β) (h : Reader.Cut limit small large) :
    Reader.Cut limit (first *> small) (first *> large) := by
  rw [seqRight_eq_bind, seqRight_eq_bind]
  exact (cut_self first).bind fun _ => h

theorem Reader.Cut.orElse {second second' : Reader α} (hfirst : Reader.Cut limit small large)
    (hsecond : Reader.Cut limit second second') :
    Reader.Cut limit (small <|> second) (large <|> second') := by
  intro s
  change JetSql.Cut _ (Reader.orElse small (fun _ => second) s)
    (Reader.orElse large (fun _ => second') s)
  rw [Reader.orElse, Reader.orElse]
  rcases hfirst s with hstop | hsame
  · rw [hstop]
    exact .inl rfl
  · rw [hsame]
    cases large s with
    | ok value rest => exact .inr rfl
    | halt error => exact .inr rfl
    | miss rest expected =>
      rcases hsecond s with hstop | hsame
      · exact .inl (by rw [hstop]; rfl)
      · exact .inr (by rw [hsame])

theorem Reader.Cut.optional (h : Reader.Cut limit small large) :
    Reader.Cut limit (Reader.optional small) (Reader.optional large) := by
  intro s
  rw [Reader.optional, Reader.optional]
  rcases h s with hstop | hsame
  · exact .inl (by rw [hstop])
  · exact .inr (by rw [hsame])

theorem Reader.Cut.expecting (expectation : Expectation) (h : Reader.Cut limit small large) :
    Reader.Cut limit (Reader.expecting expectation small) (Reader.expecting expectation large) := by
  intro s
  rw [Reader.expecting, Reader.expecting]
  rcases h s with hstop | hsame
  · exact .inl (by rw [hstop]; rfl)
  · exact .inr (by rw [hsame])

/-! ### Lists -/

variable {separator : Reader Unit}

theorem cut_furtherItems (h : Reader.Cut limit small large) (n : Nat) :
    Reader.Cut limit (furtherItems separator small n) (furtherItems separator large n) := by
  induction n with
  | zero => exact cut_self _
  | succ n ih =>
    refine (h.seqRight separator).optional.bind fun found => ?_
    cases found with
    | none => exact cut_self _
    | some value => exact ih.bind fun _ => cut_self _

theorem cut_separated1 (h : Reader.Cut limit small large) :
    Reader.Cut limit (separated1 separator small) (separated1 separator large) :=
  h.bind fun _ s => (cut_furtherItems h s.length).bind (fun _ => cut_self _) s

theorem cut_separated0 (h : Reader.Cut limit small large) :
    Reader.Cut limit (separated0 separator small) (separated0 separator large) := by
  refine h.optional.bind fun found => ?_
  cases found with
  | none => exact cut_self _
  | some value => exact fun s => (cut_furtherItems h s.length).bind (fun _ => cut_self _) s

end Combinators

/-! ### The grammar -/

/-- What a smaller limit does to a reader, which the whole grammar hands on. -/
def cutting (limit limit' : Nat) : Parametric limit limit' where
  Rel := Reader.Cut limit
  pure _ := cut_self _
  bind := Reader.Cut.bind
  orElse := Reader.Cut.orElse
  optional := Reader.Cut.optional
  expecting := Reader.Cut.expecting
  separated0 := cut_separated0
  separated1 := cut_separated1
  halt _ := cut_self _
  stop _ := fun _ => .inl rfl
  spacing := cut_self _
  opening := cut_self _
  symbol _ := cut_self _
  keyword _ := cut_self _
  name := cut_self _
  part := cut_self _
  tableAlias := cut_self _
  parts := cut_self _
  identifier := cut_self _
  literal := cut_self _
  rowCount := cut_self _
  allOf := cut_self _
  endOfText := cut_self _
  leading hnot hminus hprimary := by
    refine (cut_self _).bind fun _ => (cut_self _).bind fun found => ?_
    split
    · exact hnot
    refine (cut_self _).bind fun found => ?_
    split
    · exact hminus
    · exact hprimary
  climb least left hlinked := by
    intro s
    rw [climb, climb]
    cases Link.read s with
    | ok found rest =>
      cases found with
      | none => exact .inr rfl
      | some link =>
        by_cases hleast : link.precedence < least
        · simp only [hleast, if_true]
          exact .inr rfl
        · simp only [hleast, if_false]
          exact hlinked link rest
    | _ => exact .inr rfl
  joinsOf left hjoined := by
    intro s
    rw [joinsOf, joinsOf]
    cases readJoin s with
    | ok found rest =>
      cases found with
      | none => exact .inr rfl
      | some kind => exact hjoined kind rest
    | _ => exact .inr rfl

theorem cut_statement {b b' : Nat} (hle : b ≤ b') :
    Reader.Cut limit (statement limit b) (statement limit' b') :=
  (cutting limit limit').statement hle

/-! ### Texts -/

/-- **Reading a text under a smaller limit is cut short or comes to the same.** -/
theorem cut_read (hle : limit ≤ limit') (s : List Char) :
    Cut (.error (beyondLimit limit)) (read limit s) (read limit' s) := by
  have hcut : Reader.Cut limit (statement limit (limit - 1)) (statement limit' (limit' - 1)) :=
    cut_statement (Nat.sub_le_sub_right hle 1)
  rw [read, read]
  rcases hcut s with hstop | hsame
  · exact .inl (by rw [hstop, resultOf])
  · exact .inr (by rw [hsame])

end Grammar

/-- A result under a limit and under a greater one: it is an error that tells of the limit and a depth
beyond it, or no different. -/
def LimitedTo {α : Type} (limit : Nat) (small large : Except Error α) : Prop :=
  (∃ depth, limit < depth ∧ small = .error (.tooDeep depth limit)) ∨ small = large

theorem LimitedTo.of_cut {α : Type} {limit depth : Nat} {small large : Except Error α}
    (hdepth : limit < depth) (h : Cut (.error (.tooDeep depth limit)) small large) :
    LimitedTo limit small large :=
  h.imp_left fun hstop => ⟨depth, hdepth, hstop⟩

open Grammar

/-- **Parsing a text under a smaller limit is cut short or comes to the same.** -/
theorem limitedTo_parse {limit limit' : Nat} (hle : limit ≤ limit') (source : String) :
    LimitedTo limit (parse source limit) (parse source limit') := by
  rw [parse, parse]
  by_cases hdepth : limit < nestingDepth source.toList
  · rw [if_pos hdepth]
    exact .inl ⟨nestingDepth source.toList, hdepth, rfl⟩
  · rw [if_neg hdepth, if_neg (by omega)]
    exact .of_cut (by omega : limit < max limit 1 + 1) (cut_read hle source.toList)

end JetSql
