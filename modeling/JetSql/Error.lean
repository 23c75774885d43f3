/-
What can go wrong, as causes. Each cause belongs to one `Category`, and `Error.message` is the only
place where causes become words.
-/

import JetSql.Text.Position
import JetSql.Tree.Kind

namespace JetSql

/-- Why the system refused a file. -/
inductive FileFault where
  | notFound | notDirectory | isDirectory | busy | nameTooLong | nullCharacter
  /-- Any other reason, in the system's own words. -/
  | other (message : String)
deriving DecidableEq, Repr

/-- The system's words for a fault. -/
def FileFault.message : FileFault → String
  | notFound => "No such file or directory (os error 2)"
  | busy => "Device or resource busy (os error 16)"
  | notDirectory => "Not a directory (os error 20)"
  | isDirectory => "Is a directory (os error 21)"
  | nameTooLong => "File name too long (os error 36)"
  | nullCharacter => "file name contained an unexpected NUL byte"
  | other message => message

/-- Why no target has a pattern. -/
inductive PatternFault where
  /-- The wildcard `#` stands for any digit. -/
  | digitWildcard
  /-- A bracket holds anything but exactly one character, or is not closed. -/
  | characterList
deriving DecidableEq, Repr

/-- The words for a pattern fault. -/
def PatternFault.message : PatternFault → String
  | digitWildcard => "the digit wildcard '#' has no SQL equivalent"
  | characterList => "character lists have no portable LIKE equivalent"

/-- Why a configuration is refused. -/
inductive ConfigFault where
  | zeroDepth
  /-- A rename with a blank side, given by its source name. -/
  | blankRename (source : String)
  | unknownDialect (name : String)
  /-- A file that is not a settings document. -/
  | unreadableSettings
  /-- A fault in a file. -/
  | inFile (path : String) (fault : ConfigFault)
deriving DecidableEq, Repr

/-- The words for a configuration fault. An unreadable settings document has none of its own. -/
def ConfigFault.message : ConfigFault → String
  | zeroDepth => "max_depth must be at least 1"
  | blankRename source => "empty function mapping for '" ++ source ++ "'"
  | unknownDialect name =>
    "unknown dialect '" ++ name ++ "' (expected postgres, mysql or sqlite)"
  | unreadableSettings => ""
  | inFile path fault => path ++ ": " ++ fault.message

/-- Whether a settings document could not be read, in a file or not. -/
def ConfigFault.isUnreadable : ConfigFault → Bool
  | unreadableSettings => true
  | inFile _ fault => fault.isUnreadable
  | zeroDepth | blankRename _ | unknownDialect _ => false

/-- The category of an error. -/
inductive Category where
  | grammar | structural | unsupported | tooDeep | inexpressible | file | config
deriving DecidableEq, Repr

/-- Why a statement could not be read, rendered or delivered. -/
inductive Error where
  /-- The text is no statement; the complaint is about the text at the position. -/
  | grammar (position : Position) (complaint : String)
  /-- An `IIF` without exactly three arguments. -/
  | argumentCount (found : Nat)
  /-- A date literal that names no date. -/
  | badDate (text : String)
  /-- A construct that no target has. -/
  | unsupported (kind : Kind)
  /-- Nesting beyond the limit; the depth is the first one found beyond it. -/
  | tooDeep (depth limit : Nat)
  /-- A pattern that no target has. -/
  | inexpressible (pattern : String) (fault : PatternFault)
  | file (path : String) (fault : FileFault)
  | config (fault : ConfigFault)
  /-- Reading breaks off, and the program with it: a keyword would have to end inside a character. -/
  | aborted
deriving DecidableEq, Repr

namespace Error

/-- The category of an error. The grammar is the one place where reading can abort. -/
def category : Error → Category
  | grammar .. | aborted => .grammar
  | argumentCount .. | badDate .. => .structural
  | unsupported .. => .unsupported
  | tooDeep .. => .tooDeep
  | inexpressible .. => .inexpressible
  | file .. => .file
  | config .. => .config

/-- The words for an error. A refused file is named here; the system's words are separate. An abort
has no words of its own. -/
def message : Error → String
  | grammar position complaint =>
    "Syntax error at line " ++ toString position.line ++ ", column " ++ toString position.column ++
      ": " ++ complaint
  | argumentCount found =>
    "Structural error in IIF: expected 3 arguments (condition, true, false), found " ++
      toString found
  | badDate text =>
    "Structural error in #" ++ text ++
      "#: unrecognized date literal (expected #yyyy-mm-dd# or #m/d/yyyy#)"
  | unsupported kind => "Unsupported construct: " ++ kind.name ++ " has no rewrite rule"
  | tooDeep depth limit =>
    "Input too deep: nesting depth " ++ toString depth ++ " exceeds limit " ++ toString limit
  | inexpressible pattern fault =>
    "Cannot translate LIKE pattern '" ++ pattern ++ "': " ++ fault.message
  | file path _ => "IO error on " ++ path
  | config fault => "Configuration error: " ++ fault.message
  | aborted => ""

/-- A grammar error at a byte offset of a source text. -/
def grammarAt (source : String) (offset : Nat) (complaint : String) : Error :=
  grammar (Position.ofByte source offset) complaint

end Error

end JetSql
