/-
Paths, as texts.

A path is names between slashes. It begins at the root if a slash comes first, and in the working
directory otherwise. Empty names count for nothing, `.` stays and `..` goes up; a path that ends in
a slash or in dots can only mean a directory.

**Not every text is a path**: `check` refuses a text with a null character, and one of more bytes
than a path may have, before anything is looked up.
-/

import JetSql.Error

namespace JetSql.Path

/-- The most bytes a path may have. -/
def maxBytes : Nat := 4095

/-- The most bytes a name may have. -/
def maxNameBytes : Nat := 255

/-- The fault of a text that is no path. -/
def check (path : String) : Except FileFault Unit :=
  if path.toList.contains '\x00' then .error .nullCharacter
  else if maxBytes < path.utf8ByteSize then .error .nameTooLong
  else .ok ()

/-- Whether a path begins at the root. -/
def isAbsolute (path : String) : Bool :=
  path.toList.head? == some '/'

/-- What stands between the slashes of a path, empty names included. -/
def segments (path : String) : List String :=
  (path.toList.splitOn '/').map String.ofList

/-- The names of a path, without empty ones. -/
def names (path : String) : List String :=
  (segments path).filter (· != "")

/-- Whether a name is a dot or two dots. -/
def isDots (name : String) : Bool :=
  name == "." || name == ".."

/-- Whether a path can only mean a directory. -/
def demandsDirectory (path : String) : Bool :=
  path.toList.getLast? == some '/' || (names path).getLast?.any isDots

/-- What a name or a path of names means in the directory of a path. -/
def join (directory names : String) : String :=
  if directory.isEmpty || directory.toList.getLast? == some '/' then directory ++ names
  else directory ++ "/" ++ names

/-! ### The directory around a path -/

/-- Segments from the last to the first, without those in front that lead nowhere. The first segment
of the path stays: it tells where the path begins. -/
def dropIdle : List String → List String
  | name :: next :: rest =>
    if name = "" || name = "." then dropIdle (next :: rest) else name :: next :: rest
  | rest => rest

/-- The path of the directory in which a path names something; a single name is in the working
directory. -/
def parent (path : String) : String :=
  match dropIdle (segments path).reverse with
  | _ :: next :: rest =>
    match dropIdle (next :: rest) with
    | [""] => "/"
    | around => String.intercalate "/" around.reverse
  | _ => "."

end JetSql.Path
