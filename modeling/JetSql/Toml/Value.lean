/-
Values and tables of a settings document in TOML.

Only the values that a setting can hold are kept apart: texts, whole numbers, dates and times, lists
without elements, and tables. A document with any other value holds no usable settings, and is
refused while it is read.

A table remembers how it came to be, its `Origin`, because that decides whether more may be added:

* **A table is opened by one header at most.** A header may still open a table that was only implied
  by a longer header before it (`openHeader`).
* **A dotted key goes on only in tables that dotted keys made** (`assign`).
* No key is given twice.
-/

namespace JetSql.Toml

/-- How a table came to be. -/
inductive Origin where
  /-- Written in braces. -/
  | braces
  /-- Opened by its own header. -/
  | header
  /-- On the way of a longer header. -/
  | implied
  /-- On the way of a dotted key. -/
  | dotted
deriving DecidableEq, Repr

/-- A value. -/
inductive Value where
  | text (value : String)
  | integer (value : Int)
  /-- A date, a time or both, in the standard form. -/
  | moment (iso : String)
  /-- A list without elements. -/
  | emptyList
  | table (origin : Origin) (entries : List (String × Value))
deriving Repr

/-- The entries of a table, in the order in which they were first named. -/
abbrev Entries := List (String × Value)

namespace Entries

/-- The value of a key. -/
def find? (key : String) : Entries → Option Value
  | [] => none
  | (k, value) :: rest => if k = key then some value else find? key rest

/-- The entries with another value for a key that they have. -/
def replace (key : String) (value : Value) : Entries → Entries
  | [] => []
  | (k, v) :: rest => if k = key then (k, value) :: rest else (k, v) :: replace key value rest

/-- A value given to a dotted key. -/
def assign (value : Value) : List String → Entries → Option Entries
  | [], _ => none
  | [key], entries =>
    if (entries.find? key).isSome then none else some (entries ++ [(key, value)])
  | key :: next :: path, entries => do
    match entries.find? key with
    | none => return entries ++ [(key, .table .dotted (← assign value (next :: path) []))]
    | some (.table .dotted inner) =>
      return entries.replace key (.table .dotted (← assign value (next :: path) inner))
    | some _ => none

/-- A table opened by a header. -/
def openHeader : List String → Entries → Option Entries
  | [], _ => none
  | [key], entries =>
    match entries.find? key with
    | none => some (entries ++ [(key, .table .header [])])
    | some (.table .implied inner) => some (entries.replace key (.table .header inner))
    | some _ => none
  | key :: next :: path, entries => do
    match entries.find? key with
    | none => return entries ++ [(key, .table .implied (← openHeader (next :: path) []))]
    | some (.table .braces _) => none
    | some (.table origin inner) =>
      return entries.replace key (.table origin (← openHeader (next :: path) inner))
    | some _ => none

/-- A value given to a dotted key in the table at a path. -/
def assignAt (key : List String) (value : Value) : List String → Entries → Option Entries
  | [], entries => entries.assign value key
  | table :: path, entries => do
    match entries.find? table with
    | some (.table origin inner) =>
      return entries.replace table (.table origin (← assignAt key value path inner))
    | _ => none

end Entries

end JetSql.Toml
