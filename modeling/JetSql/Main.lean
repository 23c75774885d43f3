/-
The program: arguments, files and streams of the system around `JetSql.CommandLine.run`.
-/

import JetSql.CommandLine.Run
import JetSql.Text.Pad

namespace JetSql.Main

/-! ### Faults -/

/-- The number and the words that the system has for an exception, if it is one of the system's. -/
def systemError? : IO.Error → Option (UInt32 × String)
  | .otherError code words | .resourceBusy code words | .resourceVanished code words
  | .unsupportedOperation code words | .hardwareFault code words
  | .unsatisfiedConstraints code words | .illegalOperation code words
  | .protocolError code words | .timeExpired code words => some (code, words)
  | .interrupted _ code words | .noFileOrDirectory _ code words => some (code, words)
  | .alreadyExists _ code words | .invalidArgument _ code words | .permissionDenied _ code words
  | .resourceExhausted _ code words | .inappropriateType _ code words
  | .noSuchThing _ code words => some (code, words)
  | .unexpectedEof | .userError _ => none

/-- The fault that an exception stands for. What the system does not refuse is a file that is no
text. -/
def faultOf (error : IO.Error) : FileFault :=
  match systemError? error with
  | some (2, _) => .notFound
  | some (16, _) => .busy
  | some (20, _) => .notDirectory
  | some (21, _) => .isDirectory
  | some (36, _) => .nameTooLong
  | some (code, words) => .other (words ++ " (os error " ++ toString code ++ ")")
  | none => .other "stream did not contain valid UTF-8"

/-- What an action on a path comes to, with the fault for its exception. -/
def attempt {α : Type} (path : String) (action : IO α) : IO (Except FileFault α) :=
  match Path.check path with
  | .error fault => return .error fault
  | .ok () => return (← action.toBaseIO).mapError faultOf

/-! ### Files -/

/-- Whether a path is that of a file, and not of a directory or a device. -/
def isFile (path : String) : IO Bool := do
  match ← attempt path do return (← (← IO.FS.realPath path).metadata).type with
  | .ok type => return type == .file
  | .error _ => return false

/-- A new file beside what a path names, with its path: the first of some names that is free. -/
def openBeside (path : String) : Nat → IO (String × IO.FS.Handle)
  | 0 => throw (.otherError 17 "File exists")
  | tries + 1 => do
    let temporary := Path.join (Path.parent path) (".tmp" ++ Text.zeroPadded 6 tries)
    match ← (IO.FS.Handle.mk temporary .writeNew).toBaseIO with
    | .ok handle => return (temporary, handle)
    | .error (.alreadyExists ..) => openBeside path tries
    | .error error => throw error

/-- Write a file that stands beside a path and put it in the place of what is there. The file is removed
if that fails. -/
def replace (temporary : String) (handle : IO.FS.Handle) (path contents : String) :
    IO (Except (WriteStep × FileFault) Unit) := do
  let write := do
    handle.putStr contents
    handle.flush
  let result ← match ← attempt temporary write with
    | .error fault => pure (.error (.opening, fault))
    | .ok () => pure ((← attempt path (IO.FS.rename temporary path)).mapError (.replacing, ·))
  if !result.isOk then
    let _ ← (IO.FS.removeFile temporary).toBaseIO
  return result

/-- Access to the files of the system. -/
def disk (userDirectory : Option String) : Disk IO where
  isFile := isFile
  read path := attempt path (IO.FS.withFile path .read (·.readToEnd))
  write path contents := do
    match ← attempt (Path.parent path) (openBeside path 1000000) with
    | .ok (temporary, handle) => replace temporary handle path contents
    | .error fault => return .error (.opening, fault)
  userDirectory := userDirectory

/-- The directory for the user's configurations. Only a path from the root counts as one for all
programs; without it the user must have a home. -/
def userDirectory : IO (Option String) := do
  match (← IO.getEnv "XDG_CONFIG_HOME").filter Path.isAbsolute with
  | some directory => return some directory
  | none => return ((← IO.getEnv "HOME").filter (· != "")).map (Path.join · ".config")

end JetSql.Main

/-- Run the program on the arguments of the command line. -/
def main (args : List String) : IO UInt32 := do
  let report ← JetSql.CommandLine.run (JetSql.Main.disk (← JetSql.Main.userDirectory)) args
  (← IO.getStdout).putStr report.out
  (← IO.getStderr).putStr report.err
  return report.code.toUInt32
