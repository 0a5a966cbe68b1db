import WebCall.Files.Tree
import WebCall.Log.Record

/-!
# Setting up the log

The log is a file that grows from run to run. A process sets up its log once.
-/
namespace WebCall.Log

/-- Why the log was not set up. -/
inductive SetupError
  /-- The file cannot be opened. -/
  | system (cause : FileError)
  /-- The process has set up a log before. -/
  | alreadySet
  deriving DecidableEq, Repr

/-- The text of the error. -/
def SetupError.message : SetupError → String
  | system cause => cause.message
  | alreadySet => "logging: a global default trace dispatcher has already been set"

/-- What setting up comes to. -/
structure Setup where
  /-- Whether the log goes to the file. -/
  result : Except SetupError Unit
  /-- The files afterwards. -/
  files : FileTree
  /-- What the log says. -/
  records : List Record := []

/-- Opens the log file, which is made with its directories if it is missing and kept as it is
otherwise. -/
def openFile (files : FileTree) (path : String) : Except FileError Unit × FileTree :=
  match files.makeParents path with
  | (.ok _, files) => files.openToAppend path
  | failed => failed

/-- Sets up the log in the file at a path. `taken` says that the process has a log already; the file
is opened all the same. -/
def setUp (files : FileTree) (path : String) (taken : Bool) : Setup :=
  match openFile files path with
  | (.error e, files) => { result := .error (.system e), files }
  | (.ok _, files) =>
    if taken then { result := .error .alreadySet, files }
    else
      { result := .ok ()
        files
        records := [⟨.info, .logging, s!"callguard logging initialized at {path}"⟩] }

end WebCall.Log
