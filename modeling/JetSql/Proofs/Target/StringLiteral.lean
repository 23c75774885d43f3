/-
String literals, from the source to the text that a target reads.

A string of a target stands between single quotes, and a pair of them inside denotes one. MySQL has
escape sequences besides, unless it is told to do without: there a backslash takes the character
after it along, whatever it is. Texts are written the same for all targets, with quotes doubled and
backslashes as they are.

* **`denoted?_of_enclose`:** in a target without escape sequences the text that a source literal
  encloses is what the target reads.
* **`denoted?_mysql_iff`:** MySQL reads what the source denotes exactly if a percent sign or an
  underscore follows every backslash, for only these two keep it. A last backslash takes the closing
  quote along.
-/

import JetSql.Proofs.Pattern.Source
import JetSql.Proofs.ReadBack.Leaf

namespace JetSql

/-! ### Strings as the targets read them -/

/-- Whether a backslash in a string begins an escape sequence. -/
def Dialect.escapesStrings : Dialect → Bool
  | .mysql => true
  | .postgres | .sqlite => false

namespace Target

/-- What the escape sequence of a character denotes. Before a wildcard of `LIKE` the backslash
stays, so that a pattern can escape it. -/
def escaped : Char → List Char
  | '0' => ['\x00']
  | 'b' => ['\x08']
  | 't' => ['\t']
  | 'n' => ['\n']
  | 'r' => ['\r']
  | 'Z' => ['\x1a']
  | '%' => ['\\', '%']
  | '_' => ['\\', '_']
  | c => [c]

/-- What was read, with more of the string before it. -/
def prepend (front : List Char) (read : Option (List Char × List Char)) :
    Option (List Char × List Char) :=
  read.map fun (value, rest) => (front ++ value, rest)

/-- What a string denotes of which the opening quote was read, and what follows the closing one. -/
def readString? (dialect : Dialect) : List Char → Option (List Char × List Char)
  | [] => none
  | [c] => if c = '\'' then some ([], []) else none
  | c :: d :: text =>
    if c = '\'' then
      if d = '\'' then prepend [c] (readString? dialect text) else some ([], d :: text)
    else if c = '\\' ∧ dialect.escapesStrings = true then
      prepend (escaped d) (readString? dialect text)
    else prepend [c] (readString? dialect (d :: text))

/-- What a text denotes that is one string and nothing else. -/
def denoted? (dialect : Dialect) : List Char → Option (List Char)
  | '\'' :: text =>
    match readString? dialect text with
    | some (value, []) => some value
    | _ => none
  | _ => none

example : denoted? .mysql "'it''s\\n'".toList = some "it's\n".toList ∧
    denoted? .sqlite "'it''s\\n'".toList = some "it's\\n".toList := by decide

variable {dialect : Dialect} {c : Char} {text rest found front : List Char}
  {read : Option (List Char × List Char)}

theorem prepend_eq_some : prepend front read = some (found, rest) ↔
    ∃ value, read = some (value, rest) ∧ front ++ value = found := by
  simp [prepend]

theorem denoted?_eq_some :
    denoted? dialect ('\'' :: text) = some found ↔ readString? dialect text = some (found, []) := by
  rw [denoted?]
  split
  · rename_i value h
    simp [h]
  · rename_i h
    simp only [reduceCtorEq, false_iff]
    exact h found

/-! ### Single steps -/

theorem readString?_close (h : text.head? ≠ some '\'') :
    readString? dialect ('\'' :: text) = some ([], text) := by
  cases text with
  | nil => rfl
  | cons d text =>
    have hd : d ≠ '\'' := by simpa using h
    simp [readString?, hd]

theorem readString?_pair (text : List Char) :
    readString? dialect ('\'' :: '\'' :: text) = prepend ['\''] (readString? dialect text) := by
  simp [readString?]

theorem readString?_plain (hquote : c ≠ '\'') (hplain : ¬(c = '\\' ∧ dialect.escapesStrings = true))
    (text : List Char) :
    readString? dialect (c :: text) = prepend [c] (readString? dialect text) := by
  cases text with
  | nil => simp [readString?, hquote, prepend]
  | cons d text => rw [readString?, if_neg hquote, if_neg hplain]

theorem readString?_escaped (text : List Char) :
    readString? .mysql ('\\' :: c :: text) = prepend (escaped c) (readString? .mysql text) := by
  rw [readString?, if_neg (by decide), if_pos ⟨rfl, rfl⟩]

/-! ### Targets without escape sequences -/

/-- Without escape sequences a doubled text is read back. -/
theorem readString?_double (hdialect : dialect.escapesStrings = false)
    (hrest : rest.head? ≠ some '\'') (text : List Char) :
    readString? dialect (Text.double '\'' text ++ '\'' :: rest) = some (text, rest) := by
  have hplain (c : Char) : ¬(c = '\\' ∧ dialect.escapesStrings = true) := by simp [hdialect]
  induction text with
  | nil => exact readString?_close hrest
  | cons c text ih =>
    by_cases hc : c = '\''
    · rw [Text.double, if_pos hc, hc, List.cons_append, List.cons_append, readString?_pair, ih]
      rfl
    · rw [Text.double, if_neg hc, List.cons_append, readString?_plain hc (hplain c), ih]
      rfl

/-! ### Escape sequences -/

theorem length_escaped_le (c : Char) :
    2 * (escaped c).length + (if c = '\'' then 1 else 0) ≤ 4 := by
  rw [escaped.eq_def]
  split <;> first | decide | (split <;> simp)

/-- Only before a wildcard the backslash stays. -/
theorem length_escaped (hpercent : c ≠ '%') (hunderscore : c ≠ '_') : (escaped c).length = 1 := by
  rw [escaped.eq_def]
  split <;> first | rfl | contradiction

/-- A quote counts for half: a pair of them denotes one, and an escape sequence at most two
characters. -/
theorem length_of_readString? (h : readString? dialect text = some (found, rest)) :
    2 * found.length + text.count '\'' < 2 * text.length := by
  fun_induction readString? dialect text generalizing found with
  | case1 | case3 => cases h
  | case2 =>
    cases h
    decide
  | case4 text ih =>
    obtain ⟨value, hvalue, rfl⟩ := prepend_eq_some.mp h
    have hle := ih hvalue
    simp only [List.singleton_append, List.length_cons, List.count_cons_self]
    omega
  | case5 d text hd =>
    cases h
    have hle := List.count_le_length (a := '\'') (l := d :: text)
    simp only [List.length_nil, List.length_cons, List.count_cons_self] at hle ⊢
    omega
  | case6 c d text hc hescape ih =>
    obtain ⟨value, hvalue, rfl⟩ := prepend_eq_some.mp h
    have hle := ih hvalue
    have hescaped := length_escaped_le d
    simp only [List.length_append, List.length_cons, List.count_cons_of_ne hc, List.count_cons,
      beq_iff_eq]
    omega
  | case7 c d text hc hplain ih =>
    obtain ⟨value, hvalue, rfl⟩ := prepend_eq_some.mp h
    have hle := ih hvalue
    simp only [List.singleton_append, List.length_cons, List.count_cons_of_ne hc] at hle ⊢
    omega

/-- Doubling adds one quote to each. -/
theorem length_double (text : List Char) :
    (Text.double '\'' text).length = text.length + text.count '\'' ∧
      (Text.double '\'' text).count '\'' = 2 * text.count '\'' := by
  induction text with
  | nil => exact ⟨rfl, rfl⟩
  | cons c text ih =>
    by_cases hc : c = '\''
    · rw [Text.double, if_pos hc, hc]
      simp only [List.length_cons, List.count_cons_self]
      omega
    · rw [Text.double, if_neg hc]
      simp only [List.length_cons, List.count_cons_of_ne hc]
      omega

/-- Whether a percent sign or an underscore follows every backslash. -/
def BackslashesKept (text : List Char) : Prop :=
  ∀ before after, text = before ++ '\\' :: after →
    after.head? = some '%' ∨ after.head? = some '_'

theorem backslashesKept_nil : BackslashesKept [] := by
  intro before after h
  cases before <;> cases h

theorem backslashesKept_cons : BackslashesKept (c :: text) ↔
    (c = '\\' → text.head? = some '%' ∨ text.head? = some '_') ∧ BackslashesKept text := by
  constructor
  · intro h
    constructor
    · rintro rfl
      exact h [] text rfl
    · rintro before after rfl
      exact h (c :: before) after rfl
  · rintro ⟨hc, htext⟩ before after h
    cases before with
    | nil =>
      obtain ⟨rfl, rfl⟩ := List.cons.inj h
      exact hc rfl
    | cons d before => exact htext before after (List.cons.inj h).2

theorem escaped_wildcard (h : c = '%' ∨ c = '_') : escaped c = ['\\', c] := by
  rcases h with rfl | rfl <;> rfl

/-- A backslash inside is read back exactly if a wildcard follows it. Any other escape sequence
leaves too little text behind it. -/
theorem readString?_backslash :
    readString? .mysql ('\\' :: (Text.double '\'' (c :: text) ++ ['\''])) =
        some ('\\' :: c :: text, []) ↔
      (c = '%' ∨ c = '_') ∧
        readString? .mysql (Text.double '\'' text ++ ['\'']) = some (text, []) := by
  by_cases hwild : c = '%' ∨ c = '_'
  · have hquote : c ≠ '\'' := by
      rintro rfl
      simp at hwild
    rw [Text.double, if_neg hquote, List.cons_append, readString?_escaped, escaped_wildcard hwild,
      prepend_eq_some]
    simp [hwild]
  · refine ⟨fun h => ?_, fun h => absurd h.1 hwild⟩
    rw [not_or] at hwild
    obtain ⟨after, hafter⟩ : ∃ after, Text.double '\'' (c :: text) ++ ['\''] = c :: after := by
      rw [Text.double]
      split <;> exact ⟨_, rfl⟩
    rw [hafter, readString?_escaped] at h
    obtain ⟨value, hvalue, hfound⟩ := prepend_eq_some.mp h
    -- The escape sequence is one character, so the rest would have to denote more than it holds.
    have hlength := congrArg List.length hfound
    have hbound := length_of_readString? hvalue
    have hdouble := length_double (c :: text)
    have hafterLength := congrArg List.length hafter
    have hafterCount := congrArg (List.count '\'') hafter
    simp only [List.length_append, List.count_append, List.length_cons, List.length_nil,
      List.count_cons, List.count_nil, beq_self_eq_true, if_true,
      length_escaped hwild.1 hwild.2] at hlength hdouble hafterLength hafterCount
    split at hafterCount <;> omega

theorem backslashesKept_backslash : BackslashesKept ('\\' :: c :: text) ↔
    (c = '%' ∨ c = '_') ∧ BackslashesKept text := by
  rw [backslashesKept_cons, backslashesKept_cons, List.head?_cons, Option.some.injEq,
    Option.some.injEq]
  constructor
  · rintro ⟨hwild, -, htext⟩
    exact ⟨hwild rfl, htext⟩
  · rintro ⟨hwild, htext⟩
    refine ⟨fun _ => hwild, ?_, htext⟩
    rintro rfl
    simp at hwild

/-- **What MySQL reads.** A doubled text is read back if all the escape sequences in it keep their
backslash. -/
theorem readString?_mysql_iff (text : List Char) :
    readString? .mysql (Text.double '\'' text ++ ['\'']) = some (text, []) ↔
      BackslashesKept text := by
  match text with
  | [] => simp [Text.double, readString?, backslashesKept_nil]
  | c :: text =>
    by_cases hquote : c = '\''
    · have hkept : BackslashesKept ('\'' :: text) ↔ BackslashesKept text := by
        simp [backslashesKept_cons]
      rw [hquote, hkept, ← readString?_mysql_iff text, Text.double, if_pos rfl, List.cons_append,
        List.cons_append, readString?_pair, prepend_eq_some]
      simp
    by_cases hback : c = '\\'
    · rw [hback, Text.double, if_neg (by decide), List.cons_append]
      cases text with
      | nil =>
        simp [Text.double, readString?, Dialect.escapesStrings, prepend, backslashesKept_cons]
      | cons d text =>
        rw [readString?_backslash, readString?_mysql_iff text, backslashesKept_backslash]
    · have hkept : BackslashesKept (c :: text) ↔ BackslashesKept text := by
        simp [backslashesKept_cons, hback]
      rw [hkept, ← readString?_mysql_iff text, Text.double, if_neg hquote, List.cons_append,
        readString?_plain hquote (by simp [hback]), prepend_eq_some]
      simp

end Target

/-! ### From the source to the target -/

variable {renderer : Renderer} {levels : Nat} {value : String} {quote : Char} {rest : List Char}

/-- What a source literal denotes stands between single quotes in the text of every target. -/
theorem toList_stringText (h : (Literal.string value quote).Formed) :
    (stringText value quote).toList = Text.enclose '\'' (Text.undouble quote value.toList) := by
  simp [stringText, stringBody_eq_double h, Text.enclose]

/-- An enclosed text is read as one literal, up to the quote that closes it. -/
theorem Grammar.literal_enclose (hquote : quote = '\'' ∨ quote = '"')
    (hrest : rest.head? ≠ some quote) (text : List Char) :
    Grammar.literal (Text.enclose quote text ++ rest) =
      .ok (.literal (.string (String.ofList (Text.double quote text)) quote)) rest := by
  have hstring : stringLiteral quote (Text.enclose quote text ++ rest) =
      .ok (.string (String.ofList (Text.double quote text)) quote) rest :=
    stringLiteral_eq_ok.mpr
      ⟨_, rfl, by simp [Text.enclose], Text.paired_double text, hrest⟩
  refine Reader.bind_eq_ok.mpr ⟨(), Text.enclose quote text ++ rest, ?_,
    Reader.bind_eq_ok.mpr ⟨_, rest, ?_, rfl⟩⟩
  · rw [spacing_eq_ok]
    rcases hquote with rfl | rfl <;> rfl
  · rcases hquote with rfl | rfl
    · exact Reader.orElse_eq_ok.mpr (.inl hstring)
    · exact Reader.orElse_eq_ok.mpr (.inr ⟨stringLiteral_misses (by simp [Text.enclose]),
        Reader.orElse_eq_ok.mpr (.inl hstring)⟩)

/-- **Without escape sequences strings keep their value.** Whatever a text holds, between quotes it
is read as one literal, and the target reads that text again from what the literal becomes. -/
theorem denoted?_of_enclose (hdialect : renderer.dialect ≠ .mysql)
    (hquote : quote = '\'' ∨ quote = '"') (hrest : rest.head? ≠ some quote) (held : List Char) :
    ∃ value text,
      Grammar.literal (Text.enclose quote held ++ rest) =
          .ok (.literal (.string value quote)) rest ∧
        renderer.renderAt (levels + 1) (.literal (.string value quote)) = .ok text ∧
        Target.denoted? renderer.dialect text.toList = some held := by
  have hformed : (Literal.string (String.ofList (Text.double quote held)) quote).Formed :=
    ⟨hquote, by simpa using Text.paired_double held⟩
  have hescapes : renderer.dialect.escapesStrings = false := by
    cases hname : renderer.dialect with
    | mysql => exact absurd hname hdialect
    | postgres | sqlite => rfl
  refine ⟨_, _, Grammar.literal_enclose hquote hrest held, rfl, ?_⟩
  rw [toList_stringText hformed, String.toList_ofList, Text.undouble_double]
  exact Target.denoted?_eq_some.mpr (Target.readString?_double hescapes (by simp) held)

/-- Quotes of both kinds, at the end too. -/
theorem denoted?_of_enclose_quotes :
    ∃ value text,
      Grammar.literal (Text.enclose '"' "'tis \"it\"'".toList ++ " AS a".toList) =
          .ok (.literal (.string value '"')) " AS a".toList ∧
        (Renderer.ofDialect .sqlite).renderAt 1 (.literal (.string value '"')) = .ok text ∧
        Target.denoted? .sqlite text.toList = some "'tis \"it\"'".toList :=
  denoted?_of_enclose (by decide) (.inr rfl) (by decide) "'tis \"it\"'".toList

/-- **What becomes of a string in MySQL.** The text of a literal is one string of MySQL that denotes
the same, exactly if every backslash that the literal denotes is one that MySQL keeps. -/
theorem denoted?_mysql_iff (h : (Literal.string value quote).Formed)
    (hdialect : renderer.dialect = .mysql) :
    ∃ text, renderer.renderAt (levels + 1) (.literal (.string value quote)) = .ok text ∧
      (Target.denoted? renderer.dialect text.toList = some (Text.undouble quote value.toList) ↔
        Target.BackslashesKept (Text.undouble quote value.toList)) := by
  refine ⟨_, rfl, ?_⟩
  rw [toList_stringText h, hdialect]
  exact Target.denoted?_eq_some.trans (Target.readString?_mysql_iff _)

/-- A backslash that a percent sign follows. -/
theorem denoted?_mysql_iff_percent :
    ∃ text,
      (Renderer.ofDialect .mysql).renderAt 1 (.literal (.string "50\\%" '\'')) = .ok text ∧
        Target.denoted? .mysql text.toList = some "50\\%".toList := by
  have hformed : (Literal.string "50\\%" '\'').Formed := ⟨.inl rfl, by decide⟩
  obtain ⟨text, htext, hiff⟩ := @denoted?_mysql_iff (.ofDialect .mysql) 0 _ _ hformed rfl
  have hkept : Target.BackslashesKept ['5', '0', '\\', '%'] := by
    simp [Target.backslashesKept_cons, Target.backslashesKept_nil]
  exact ⟨text, htext, hiff.mpr hkept⟩

/-- After a last backslash the closing quote does not close. -/
theorem not_denoted?_mysql_last :
    ¬∀ (value : String) (quote : Char), (Literal.string value quote).Formed →
      ∃ text, (Renderer.ofDialect .mysql).renderAt 1 (.literal (.string value quote)) = .ok text ∧
        Target.denoted? .mysql text.toList = some (Text.undouble quote value.toList) := by
  intro h
  obtain ⟨text, htext, hdenoted⟩ := h "a\\" '\'' ⟨.inl rfl, by decide⟩
  have hwritten : (Renderer.ofDialect .mysql).renderAt 1 (.literal (.string "a\\" '\'')) =
      .ok "'a\\'" := rfl
  obtain rfl := Except.ok.inj (hwritten.symm.trans htext)
  exact absurd hdenoted (by decide)

end JetSql
