/-
The target dialects: everything in which the targets differ is a function on `Dialect`.

* Names that were bracketed are quoted in the target's way, with the quote doubled inside.
* `concat` joins texts so that a missing value counts as the empty text, as the source's `&` does.
* `intDiv` is whole division; its operands arrive with the parentheses they need.
-/

import JetSql.Error
import JetSql.Text.Quoted

namespace JetSql

/-- A target dialect. -/
inductive Dialect where
  | postgres | mysql | sqlite
deriving DecidableEq, Repr

namespace Dialect

/-- Every dialect. -/
def all : List Dialect := [postgres, mysql, sqlite]

/-- The name of a dialect. -/
def name : Dialect → String
  | postgres => "postgres"
  | mysql => "mysql"
  | sqlite => "sqlite"

/-- The dialect of an exact name, or of a short name for PostgreSQL. -/
def ofExactName? (name : String) : Option Dialect :=
  if name = "postgres" || name = "postgresql" || name = "pg" then some postgres
  else if name = "mysql" then some mysql
  else if name = "sqlite" then some sqlite
  else none

/-- The dialect of a name in any case. -/
def ofName (name : String) : Except Error Dialect :=
  match ofExactName? name.toLower with
  | some dialect => .ok dialect
  | none => .error (.config (.unknownDialect name.toLower))

/-- The character that encloses a quoted name. -/
def nameQuote : Dialect → Char
  | mysql => '\x60'
  | postgres | sqlite => '"'

/-- A name in quotes. -/
def quoteName (dialect : Dialect) (name : String) : String :=
  String.ofList (Text.enclose dialect.nameQuote name.toList)

/-- A truth value. -/
def boolean : Dialect → Bool → String
  | sqlite, true => "1"
  | sqlite, false => "0"
  | postgres, true | mysql, true => "TRUE"
  | postgres, false | mysql, false => "FALSE"

/-- The texts joined to one text. -/
def concat (dialect : Dialect) (parts : List String) : String :=
  match dialect with
  | postgres => "CONCAT(" ++ String.intercalate ", " parts ++ ")"
  | mysql => "CONCAT_WS('', " ++ String.intercalate ", " parts ++ ")"
  | sqlite => String.intercalate " || " (parts.map fun part => "COALESCE(" ++ part ++ ", '')")

/-- Whole division. -/
def intDiv (dialect : Dialect) (left right : String) : String :=
  match dialect with
  | postgres => "DIV(" ++ left ++ ", " ++ right ++ ")"
  | mysql => left ++ " DIV " ++ right
  | sqlite => "CAST(" ++ left ++ " / " ++ right ++ " AS INTEGER)"

/-- A date, given in the standard form. -/
def date : Dialect → String → String
  | sqlite, iso => "'" ++ iso ++ "'"
  | postgres, iso | mysql, iso => "DATE '" ++ iso ++ "'"

/-- A date with a time, given in the standard form. -/
def timestamp : Dialect → String → String
  | sqlite, iso => "'" ++ iso ++ "'"
  | postgres, iso | mysql, iso => "TIMESTAMP '" ++ iso ++ "'"

/-- A bound on the number of rows. -/
def limit (_ : Dialect) (rows : Nat) : String :=
  "LIMIT " ++ toString rows

/-- The functions that have another name in the target, by their names in upper case. -/
def renames : Dialect → List (String × String)
  | postgres =>
    [("NZ", "COALESCE"), ("UCASE", "UPPER"), ("LCASE", "LOWER"), ("LEN", "LENGTH"),
     ("MID", "SUBSTR"), ("INSTR", "STRPOS"), ("INT", "FLOOR"), ("CSTR", "TEXT")]
  | mysql =>
    [("NZ", "IFNULL"), ("UCASE", "UPPER"), ("LCASE", "LOWER"), ("LEN", "CHAR_LENGTH"),
     ("MID", "SUBSTRING"), ("INT", "FLOOR")]
  | sqlite =>
    [("NZ", "IFNULL"), ("UCASE", "UPPER"), ("LCASE", "LOWER"), ("LEN", "LENGTH"),
     ("MID", "SUBSTR"), ("INSTR", "INSTR")]

end Dialect

end JetSql
