/-
Files and directories, and what paths mean among them.

A `Location` is a list of names, from the root down. Paths that do not begin at the root begin in
the working directory, which lies somewhere below it. Every name of a path but the last must be that
of a directory, and so must the last when the path can only mean a directory.

* `read` gives the contents of a file, or the fault for which there are none.
* **`write` is all or nothing.** The contents first go to a temporary file beside the goal, which
  then replaces the goal whole; a fault at either step leaves every file as it was.
* `toList` lists the files of the working directory alone.
-/

import JetSql.Path

namespace JetSql

/-- The names on the way to a file or directory. -/
abbrev Location := List String

/-- The directories, the devices, and the files with their contents. A directory that holds
something need not be listed. -/
structure Files where
  workingDirectory : Location
  directories : List Location
  /-- What can be read, always as nothing, but is no file. -/
  devices : List Location
  contents : List (Location × String)
deriving DecidableEq, Repr

/-- What there is at a location. -/
inductive Entry where
  | directory
  | device
  | file (contents : String)
deriving DecidableEq, Repr

/-- The step at which a file could not be written. -/
inductive WriteStep where
  /-- Opening a temporary file in the directory of the goal. -/
  | opening
  /-- Putting it in the place of the goal. -/
  | replacing
deriving DecidableEq, Repr

namespace Files

/-! ### What is there -/

/-- Whether there is a directory at a location. -/
def isDirectoryAt (files : Files) (location : Location) : Bool :=
  (files.workingDirectory :: files.directories).any (location.isPrefixOf ·) ||
    (files.devices ++ files.contents.map (·.1)).any fun held =>
      location.isPrefixOf held && location != held

/-- What there is at a location. -/
def entryAt? (files : Files) (location : Location) : Option Entry :=
  match files.contents.lookup location with
  | some contents => some (.file contents)
  | none =>
    if files.devices.contains location then some .device
    else if files.isDirectoryAt location then some .directory
    else none

/-! ### Paths -/

/-- Where a path begins. -/
def start (files : Files) (path : String) : Location :=
  if Path.isAbsolute path then [] else files.workingDirectory

/-- What a name means in a directory, if it is not too long to mean anything. -/
def child (files : Files) (directory : Location) (name : String) :
    Except FileFault (Option Entry) :=
  if Path.maxNameBytes < name.utf8ByteSize then .error .nameTooLong
  else .ok (files.entryAt? (directory ++ [name]))

/-- The directory that names lead to from a directory. Above the root there is only the root. -/
def walk (files : Files) (location : Location) : List String → Except FileFault Location
  | [] => .ok location
  | name :: rest =>
    if name = "." then files.walk location rest
    else if name = ".." then files.walk location.dropLast rest
    else do
      match ← files.child location name with
      | some .directory => files.walk (location ++ [name]) rest
      | some _ => .error .notDirectory
      | none => .error .notFound

/-- The directory around what a path means. -/
def around (files : Files) (path : String) : Except FileFault Location :=
  files.walk (files.start path) (Path.names path).dropLast

/-- What a path means. -/
def find (files : Files) (path : String) : Except FileFault Entry := do
  Path.check path
  match (Path.names path).getLast? with
  | none => if path.isEmpty then .error .notFound else .ok .directory
  | some name =>
    let directory ← files.around path
    if Path.isDots name then .ok .directory
    else
      match ← files.child directory name with
      | some .directory => .ok .directory
      | some entry => if Path.demandsDirectory path then .error .notDirectory else .ok entry
      | none => .error .notFound

/-! ### Reading -/

/-- The contents of the file that a path means. -/
def read (files : Files) (path : String) : Except FileFault String := do
  match ← files.find path with
  | .file contents => .ok contents
  | .device => .ok ""
  | .directory => .error .isDirectory

/-- Whether a path means a file. -/
def isFile (files : Files) (path : String) : Bool :=
  match files.find path with
  | .ok (.file _) => true
  | _ => false

/-! ### Writing -/

/-- The path of the working directory. -/
def workingPath (files : Files) : String :=
  "/" ++ String.intercalate "/" files.workingDirectory

/-- A name for a temporary file; all such names have its length. -/
def temporaryName : String := ".tmp000000"

/-- The path of a temporary file beside what a path names. It begins at the root. -/
def temporaryPath (files : Files) (path : String) : String :=
  let directory := Path.parent path
  let rooted :=
    if Path.isAbsolute directory then directory else files.workingPath ++ "/" ++ directory
  rooted ++ "/" ++ temporaryName

/-- The directory of a temporary file beside what a path names. -/
def opening (files : Files) (path : String) : Except FileFault Location := do
  Path.check (files.temporaryPath path)
  files.around (files.temporaryPath path)

/-- The location that may be replaced under a path. -/
def goal (files : Files) (path : String) : Except FileFault Location := do
  Path.check path
  match (Path.names path).getLast? with
  | none => .error (if path.isEmpty then .notFound else .busy)
  | some name =>
    let directory ← files.around path
    if Path.isDots name then .error .busy
    else
      let entry ← files.child directory name
      if Path.demandsDirectory path then .error .notDirectory
      else if entry = some .directory then .error .isDirectory
      else .ok (directory ++ [name])

/-- The files with one file's contents put in. -/
def put (files : Files) (location : Location) (contents : String) : Files :=
  { files with contents := (location, contents) :: files.contents.filter (·.1 != location) }

/-- The files after a file is written, or the step and the fault for which it is not. -/
def write (files : Files) (path contents : String) : Except (WriteStep × FileFault) Files :=
  match files.opening path with
  | .error fault => .error (.opening, fault)
  | .ok _ =>
    match files.goal path with
    | .error fault => .error (.replacing, fault)
    | .ok location => .ok (files.put location contents)

/-! ### Building -/

/-- The directories that every system has below its root. -/
def systemDirectories : List Location :=
  ["bin", "boot", "dev", "etc", "home", "lib", "media", "mnt", "opt", "proc", "root", "run", "sbin",
    "srv", "sys", "tmp", "usr", "var"].map ([·])

/-- A system whose working directory is a new temporary one. Nothing is there to be read. -/
def system : Files where
  workingDirectory := ["tmp", temporaryName]
  directories := systemDirectories
  devices := [["dev", "null"], ["dev", "stdin"]]
  contents := []

/-- The working directory with files from paths and contents; a path without contents is a
directory. -/
def ofList (entries : List (String × Option String)) : Files :=
  let locate path := system.workingDirectory ++ (Path.names path).filter (· != ".")
  { system with
    directories := system.directories ++ entries.filterMap fun (path, contents) =>
      if contents.isNone then some (locate path) else none
    contents := entries.filterMap fun (path, contents) =>
      contents.map fun contents => (locate path, contents) }

/-- The path of a location below the working directory. -/
def localPath? (files : Files) (location : Location) : Option String :=
  if files.workingDirectory.isPrefixOf location then
    some (String.intercalate "/" (location.drop files.workingDirectory.length))
  else none

/-- All files of the working directory by their paths. -/
def toList (files : Files) : List (String × String) :=
  files.contents.filterMap fun (location, contents) =>
    (files.localPath? location).map (·, contents)

end Files

end JetSql
