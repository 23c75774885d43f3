/-
What patterns match, and how they are written down.

A pattern matches a text that can be cut into one part for each of its elements. Two notations write
patterns down. In the source `*` and `?` are the wildcards and a bracket around one character makes
it plain; `Denotes` says which pattern a text denotes there. In the targets `%` and `_` are the
wildcards, and the escape character, if there is one, makes the character after it plain;
`readLike?` reads that. What a target is given is an operand of `LIKE`: a string literal, and
perhaps a clause that names the escape character. `readOperand?` reads an operand, and nothing may
follow it.

* **`Denotes.unique`:** a source text denotes at most one pattern.
* **`readOperand?_enclose`:** a literal that was written is read back, with the clause behind it.
-/

import JetSql.Pattern
import JetSql.Proofs.Text.Paired

namespace JetSql

/-- What one element matches. -/
inductive Wildcard.Matches : Wildcard → List Char → Prop where
  | anyText (part : List Char) : Matches .anyText part
  | anyChar (c : Char) : Matches .anyChar [c]
  | exactly (c : Char) : Matches (.exactly c) [c]

namespace Pattern

/-- What a pattern matches: one part after another, each matched by its element. -/
inductive Matches : Pattern → List Char → Prop where
  | nil : Matches [] []
  | cons {wildcard : Wildcard} {pattern : Pattern} {part subject : List Char} :
      wildcard.Matches part → Matches pattern subject →
        Matches (wildcard :: pattern) (part ++ subject)

variable {text subject : List Char} {pattern : Pattern}

/-! ### The source -/

/-- The pattern that a source text denotes, if brackets may hold the characters `held`. The wildcard
for a digit and longer brackets denote no pattern. -/
inductive Denotes (held : Char → Prop) : List Char → Pattern → Prop where
  | nil : Denotes held [] []
  | anyText {text : List Char} {pattern : Pattern} :
      Denotes held text pattern → Denotes held ('*' :: text) (.anyText :: pattern)
  | anyChar {text : List Char} {pattern : Pattern} :
      Denotes held text pattern → Denotes held ('?' :: text) (.anyChar :: pattern)
  | bracketed {c : Char} {text : List Char} {pattern : Pattern} :
      held c → Denotes held text pattern →
        Denotes held ('[' :: c :: ']' :: text) (.exactly c :: pattern)
  | plain {c : Char} {text : List Char} {pattern : Pattern} :
      c ∉ "*?#[".toList → Denotes held text pattern →
        Denotes held (c :: text) (.exactly c :: pattern)

/-- What a source text matches. A bracket holds any one character that does not close it. -/
def SourceMatches (text subject : List Char) : Prop :=
  ∃ pattern, Denotes (· ≠ ']') text pattern ∧ Matches pattern subject

theorem Denotes.mono {held held' : Char → Prop} (hheld : ∀ c, held c → held' c)
    (h : Denotes held text pattern) : Denotes held' text pattern := by
  induction h with
  | nil => exact .nil
  | anyText _ ih => exact .anyText ih
  | anyChar _ ih => exact .anyChar ih
  | bracketed hc _ ih => exact .bracketed (hheld _ hc) ih
  | plain hc _ ih => exact .plain hc ih

/-- The first character tells which element a text begins with. -/
theorem Denotes.unique {held held' : Char → Prop} {pattern' : Pattern}
    (h : Denotes held text pattern) (h' : Denotes held' text pattern') : pattern = pattern' := by
  induction h generalizing pattern' with
  | nil =>
    cases h'
    rfl
  | anyText _ ih =>
    cases h' with
    | anyText h' => rw [ih h']
    | plain hc => exact absurd (by decide) hc
  | anyChar _ ih =>
    cases h' with
    | anyChar h' => rw [ih h']
    | plain hc => exact absurd (by decide) hc
  | bracketed _ _ ih =>
    cases h' with
    | bracketed _ h' => rw [ih h']
    | plain hc => exact absurd (by decide) hc
  | plain hc _ ih =>
    cases h' with
    | plain _ h' => rw [ih h']
    | anyText | anyChar | bracketed => exact absurd (by decide) hc

/-- A source text matches what the pattern it denotes does. -/
theorem Denotes.sourceMatches_iff (h : Denotes (· ≠ ']') text pattern) :
    SourceMatches text subject ↔ Matches pattern subject := by
  constructor
  · rintro ⟨pattern', h', hmatches⟩
    rwa [h.unique h']
  · exact fun hmatches => ⟨pattern, h, hmatches⟩

/-! ### The targets -/

/-- The element that a character is in a target if nothing escapes it. -/
def unescaped (c : Char) : Wildcard :=
  if c = '%' then .anyText else if c = '_' then .anyChar else .exactly c

/-- The pattern that a text denotes in a target. An escape character with nothing after it makes the
text no pattern. -/
def readLike? (escape : Option Char) : List Char → Option Pattern
  | [] => some []
  | [c] => if escape = some c then none else some [unescaped c]
  | c :: d :: text =>
    if escape = some c then (readLike? escape text).map (.exactly d :: ·)
    else (readLike? escape (d :: text)).map (unescaped c :: ·)

theorem readLike?_escaped (c d : Char) (text : List Char) :
    readLike? (some c) (c :: d :: text) = (readLike? (some c) text).map (.exactly d :: ·) := by
  rw [readLike?, if_pos rfl]

theorem readLike?_unescaped {escape : Option Char} {c : Char} (h : escape ≠ some c)
    (text : List Char) :
    readLike? escape (c :: text) = (readLike? escape text).map (unescaped c :: ·) := by
  cases text with
  | nil => simp [readLike?, h]
  | cons d text => rw [readLike?, if_neg h]

/-- What a text matches in a target. -/
def LikeMatches (escape : Option Char) (text subject : List Char) : Prop :=
  ∃ pattern, readLike? escape text = some pattern ∧ Matches pattern subject

/-- A text matches in a target what the pattern that is read from it does. -/
theorem likeMatches_iff {escape : Option Char} (h : readLike? escape text = some pattern) :
    LikeMatches escape text subject ↔ Matches pattern subject := by
  simp [LikeMatches, h]

/-! ### Operands -/

/-- The escape character that a clause names, or none if there is no clause. -/
def readEscape? : List Char → Option (Option Char)
  | [] => some none
  | [' ', 'E', 'S', 'C', 'A', 'P', 'E', ' ', '\'', c, '\''] =>
    if c = '\'' then none else some (some c)
  | _ => none

/-- The text of the one string literal that an operand consists of, and the escape character that a
clause behind it names. -/
def readOperand? : List Char → Option (List Char × Option Char)
  | '\'' :: text =>
    match Text.splitBody '\'' text with
    | (body, _ :: after) => (readEscape? after).map fun escape => (Text.undouble '\'' body, escape)
    | (_, []) => none
  | _ => none

theorem readOperand?_enclose (text : List Char) {after : List Char}
    (hafter : after.head? ≠ some '\'') :
    readOperand? (Text.enclose '\'' text ++ after) =
      (readEscape? after).map fun escape => (text, escape) := by
  have hpaired : Text.paired '\'' (Text.double '\'' text) = true := Text.paired_double text
  have hsplit := Text.splitBody_of_paired hpaired hafter
  simp [Text.enclose, readOperand?, hsplit]

end Pattern

end JetSql
