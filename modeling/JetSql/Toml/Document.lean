/-
Settings documents: lines that open a table or give a value to a key.

`Document.read?` gives the entries of the outermost table, or nothing when the text is no document
or holds a value that no setting takes.
-/

import JetSql.Toml.Moment
import JetSql.Toml.Value

namespace JetSql.Toml

namespace Scan

/-! ### Values -/

/-- The entries between braces after the opening one, at most so many, when a value can be read. -/
def bracedEntries (value : Scan Value) : Nat → Entries → Scan Entries
  | 0, _ => failure
  | n + 1, entries => do
    let path ← key
    char '='
    blanks
    let item ← value
    blanks
    match entries.assign item path with
    | none => failure
    | some entries =>
      match ← rest with
      | ',' :: s =>
        set s
        bracedEntries value n entries
      | '}' :: s =>
        set s
        pure entries
      | _ => failure

/-- A table in braces after the opening one. -/
def bracedTable (value : Scan Value) : Scan Value := do
  blanks
  match ← rest with
  | '}' :: s =>
    set s
    pure (.table .braces [])
  | s => return .table .braces (← bracedEntries value (s.length + 1) [])

/-- A value in which tables in braces nest at most so deep. -/
def value : Nat → Scan Value
  | 0 => failure
  | depth + 1 => do
    match ← rest with
    | '"' :: _ | '\'' :: _ => return .text (← text)
    | '\x7b' :: s =>
      set s
      bracedTable (value depth)
    | '[' :: s =>
      set s
      layout (s.length + 1)
      char ']'
      pure .emptyList
    | _ => (return .moment (← moment)) <|> (return .integer (← integer))

end Scan

/-! ### Lines -/

/-- The state of a reading: the table that lines add to, and all entries so far. -/
structure Document where
  current : List String
  entries : Entries

namespace Document

open Scan

/-- A header and the rest of its line. -/
def headerLine (document : Document) : Scan Document := do
  char '['
  let path ← key
  char ']'
  lineTail
  match document.entries.openHeader path with
  | none => failure
  | some entries => pure ⟨path, entries⟩

/-- A key with its value and the rest of the line. -/
def keyLine (document : Document) : Scan Document := do
  let path ← key
  char '='
  blanks
  let item ← value ((← rest).length + 1)
  lineTail
  match document.entries.assignAt path item document.current with
  | none => failure
  | some entries => pure { document with entries }

/-- The lines of a document, at most so many. -/
def lines : Nat → Document → Scan Document
  | 0, document => pure document
  | n + 1, document => do
    blanks
    let s ← rest
    match s with
    | [] => pure document
    | '#' :: _ | '\n' :: _ | '\r' :: _ =>
      lineTail
      lines n document
    | '[' :: _ => lines n (← headerLine document)
    | _ => lines n (← keyLine document)

/-- The entries of a text. A mark of byte order may stand before the first line. -/
def read? (source : String) : Option Entries :=
  let cs := match source.toList with
    | '\ufeff' :: cs => cs
    | cs => cs
  match lines (cs.length + 1) ⟨[], []⟩ cs with
  | some (document, []) => some document.entries
  | _ => none

end Document

end JetSql.Toml
