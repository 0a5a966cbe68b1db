import WebCall.Command.Help
import WebCall.Places

/-!
# Reports

What a run of the program tells its user: the texts on both output streams, and an exit code. It is
0 for a run that did what was asked, 1 for one that failed, and 2 for arguments that ask for nothing.
-/
namespace WebCall.Command

/-- What a run tells its user. -/
structure Report where
  /-- The exit code. -/
  exit : Nat := 0
  /-- The text on the output stream. -/
  output : String := ""
  /-- The text on the error stream. -/
  complaint : String := ""
  deriving DecidableEq, Repr, Inhabited

/-- What is wrong with arguments, in words. -/
def UsageError.message : UsageError → String
  | nothingAsked => "a command is required"
  | missingRequired => "a required argument was not given"
  | missingValue => "a value is required for an option, but none was given"
  | badValue => "invalid value for an option"
  | unneededValue => "unexpected value for a flag"
  | repeated => "an option cannot be used more than once"
  | unknownArgument => "unexpected argument"
  | unknownCommand => "unrecognized command"

namespace Report

/-- The report of a failure, from its texts, outermost first. -/
def ofFailure (chain : List String) : Report :=
  let text := ": ".intercalate chain
  { exit := 1, complaint := s!"{Places.program} error: {text}\n" }

/-- The report on arguments that ask for nothing. With no arguments at all the user gets the help
text. -/
def ofUsage : UsageError → Report
  | .nothingAsked => { exit := 2, complaint := Topic.program.text }
  | error => { exit := 2, complaint := s!"error: {error.message}\n" }

end Report

end WebCall.Command
