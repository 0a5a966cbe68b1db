import WebCall.Text.Quoted

/-!
# Log records

What the program writes about its own work: a level, the area of the program that speaks, and a
message. A record stands in the log with its time, all on one line. Controls that a terminal could
obey are shown by their numbers; a line end in a message is kept, so that such a record has more
than one line.
-/
namespace WebCall.Log

/-- How important a record is, the most important first. -/
inductive Level
  | error
  | warn
  | info
  | debug
  | trace
  deriving DecidableEq, Repr, Inhabited

namespace Level

/-- The rank of a level; more detail has a higher rank. -/
def rank : Level → Nat
  | error => 1
  | warn => 2
  | info => 3
  | debug => 4
  | trace => 5

/-- The name of a level in the log. -/
def name : Level → String
  | error => "ERROR"
  | warn => "WARN"
  | info => "INFO"
  | debug => "DEBUG"
  | trace => "TRACE"

end Level

/-- The areas of the program that write records. -/
inductive Area
  | logging
  | config
  | errorBody
  | transfer
  | attempts
  | resultCell
  | scheduler
  | commandLine
  | callCommand
  deriving DecidableEq, Repr

/-- The path of an area, which log filters refer to. -/
def Area.path : Area → String
  | logging => "callguard_core::logging"
  | config => "callguard_core::config"
  | errorBody => "callguard_core::error_body"
  | transfer => "callguard_core::http::curl_client"
  | attempts => "callguard_core::retry::run"
  | resultCell => "callguard_core::oneshot"
  | scheduler => "callguard_core::scheduler"
  | commandLine => "callguard::cli"
  | callCommand => "callguard::cli::commands::call"

/-- One record of the log. -/
structure Record where
  /-- Its importance. -/
  level : Level
  /-- Who wrote it. -/
  area : Area
  /-- What it says. -/
  message : String
  deriving DecidableEq, Repr

/-- How a character of a message is written. -/
def shownChar (c : Char) : List Char :=
  if ['\x07', '\x08', '\x0c', '\x1b', '\x7f'].contains c then
    ['\\', 'x', Char.ofNat (0x30 + c.toNat / 16)] ++ Text.hexDigits (c.toNat % 16)
  else if 0x80 ≤ c.toNat && c.toNat ≤ 0x9F then
    ['\\', 'u', '\x7b'] ++ Text.hexDigits c.toNat ++ ['\x7d']
  else [c]

/-- How a message is written. -/
def shownMessage (message : String) : String := .ofList (message.toList.flatMap shownChar)

/-- The name of a level with blanks in front, so that all names end in one column. -/
def Level.column (l : Level) : String :=
  .ofList (List.replicate (5 - l.name.length) ' ') ++ l.name

/-- The line of a record, without its end. -/
def Record.line (time : String) (r : Record) : String :=
  s!"{time} {r.level.column} {r.area.path}: {shownMessage r.message}"

end WebCall.Log
