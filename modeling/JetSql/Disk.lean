/-
Access to files, for programs that only need to look whether a path is a file, to read one and to
write one. `Files.disk` is such access to a plain value of `Files`.
-/

import JetSql.Files
import JetSql.Settings

namespace JetSql

/-- Access to files in a monad. -/
structure Disk (m : Type → Type) where
  /-- Whether a path is that of a file. -/
  isFile : String → m Bool
  /-- The contents of a file. -/
  read : String → m (Except FileFault String)
  /-- Put a file in the place of whatever file there is at a path. -/
  write : String → String → m (Except (WriteStep × FileFault) Unit)
  /-- The directory for a user's configurations. -/
  userDirectory : Option String

/-- Access to a working directory. -/
def Files.disk (userDirectory : Option String) : Disk (StateM Files) where
  isFile path := return (← get).isFile path
  read path := return (← get).read path
  write path contents := do
    match (← get).write path contents with
    | .ok files =>
      set files
      return .ok ()
    | .error fault => return .error fault
  userDirectory := userDirectory

/-! ### Configurations in files -/

/-- The path of a configuration that belongs to the working directory. -/
def Config.localPath : String := "accql.toml"

/-- The path of a configuration that belongs to the user. -/
def Config.userPath (directory : String) : String :=
  Path.join directory "accql/config.toml"

/-- A configuration fault names the file it is in. -/
def Error.inFile (path : String) : Error → Error
  | .config fault => .config (.inFile path fault)
  | error => error

namespace Disk

variable {m : Type → Type} [Monad m]

/-- The configuration in a file. -/
def readConfig (disk : Disk m) (path : String) : m (Except Error Config) := do
  match ← disk.read path with
  | .ok source => return (Config.ofSettings source).mapError (Error.inFile path)
  | .error fault => return .error (.file path fault)

/-- The configuration in the first of several paths that is a file, or the default one. -/
def firstConfig (disk : Disk m) : List String → m (Except Error Config)
  | [] => return .ok .default
  | path :: paths => do
    if ← disk.isFile path then disk.readConfig path else disk.firstConfig paths

/-- The configuration to use: that of the path given, or else that of the working directory, or else
that of the user, or else the default one. -/
def loadConfig (disk : Disk m) : Option String → m (Except Error Config)
  | some path => disk.readConfig path
  | none =>
    disk.firstConfig (Config.localPath :: (disk.userDirectory.map Config.userPath).toList)

end Disk

end JetSql
