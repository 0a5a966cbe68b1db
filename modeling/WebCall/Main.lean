import Std.Time
import WebCall.Command.Program
import WebCall.Disk
import WebCall.Log.Record
import WebCall.Network

/-!
# The command line

The outer layer of the program: it looks at the environment and the files, moves requests over the
network, waits, and prints. What is done in which order is told by `Command.Start` and
`Call.Caller`.
-/
namespace WebCall.Outer

open Command

/-- What the process was started with. -/
def startOf (arguments : List String) : IO Start := do
  let places : Places :=
    { home := (← IO.getEnv "HOME").getD "/"
      configHome := ← IO.getEnv "XDG_CONFIG_HOME"
      stateHome := ← IO.getEnv "XDG_STATE_HOME" }
  return { arguments, places
           token := ← IO.getEnv "CALLGUARD_TOKEN"
           logRequest := ← IO.getEnv "RUST_LOG" }

/-- The time as the log shows it. -/
def timeText : IO String := do
  let now ← Std.Time.Timestamp.now
  let moment := Std.Time.DateTime.ofTimestampWithZone now .UTC
  return moment.format "uuuu-MM-dd'T'HH:mm:ss.SSSSSS'Z'"

/-- Writes to the log what it takes of records. -/
def writeLog (s : Start) (hasLogFile : Bool) (records : List Log.Record) : IO Unit := do
  let time ← timeText
  let text := String.join ((s.logged records).map fun r => r.line time ++ "\n")
  if hasLogFile then (← IO.FS.Handle.mk s.places.logFile .append).putStr text
  else IO.eprint text

/-- Lets time pass. -/
partial def pause (millis : Nat) : IO Unit := do
  let step := min millis (Nat.pow 2 31)
  IO.sleep step.toUInt32
  if step < millis then pause (millis - step)

/-- Makes the attempt that is about to begin and those that follow from it. -/
partial def attempt (log : List Log.Record → IO Unit) (connectLimit : Duration) (c : Call.Caller) :
    IO Call.Outcome := do
  let reply ← Network.exchange connectLimit (c.sent false)
  log (reply.records ++ (c.answerEvents reply.outcome).flatMap Call.Event.records)
  match c.ending reply.outcome with
  | .resolve outcome => return outcome
  | .again delay =>
    log (c.handoverEvent delay).records
    pause (delay.nanos / 1000000)
    attempt log connectLimit c.next

/-- Makes the call that arguments describe. -/
def call (log : List Log.Record → IO Unit) (arguments : CallArguments) (config : Config) :
    IO Report := do
  match arguments.plan config with
  | .error e => return .ofCall (.error e)
  | .ok plan =>
    log [plan.record]
    let order := plan.order config.effective.policy
    let outcome ← attempt log config.effective.connectTimeout { order, token := 0, cell := 0 }
    return .ofCall (CallRun.resultOf (some outcome))

/-- Prints a report. -/
def tell (r : Report) : IO UInt32 := do
  IO.print r.output
  IO.eprint r.complaint
  return r.exit.toUInt32

/-- A whole run. A log file that cannot be made on the disk is given up; a configuration file that
cannot be made is a failure. -/
def run (arguments : List String) : IO UInt32 := do
  let s ← startOf arguments
  let files ← Disk.survey {} s.places.configFile true
  let files ← Disk.survey files s.places.logFile false
  let p := s.prepare files
  let failures ← Disk.commit files p.files
  let isOn (path : String) (place : Place) : Bool := place.isSuffixOf (Path.names path).reverse
  let hasLogFile := p.hasLogFile && !failures.any fun f => isOn s.places.logFile f.1
  let log := writeLog s hasLogFile
  log p.records
  match failures.find? fun f => isOn s.places.configFile f.1 with
  | some (_, e) => tell (.ofFailure [toString e])
  | none =>
    match p.stage with
    | .ended report => tell report
    | .calling arguments config => tell (← call log arguments config)

end WebCall.Outer

/-- Runs the program. -/
def main (arguments : List String) : IO UInt32 := do
  try WebCall.Outer.run arguments
  catch e => WebCall.Outer.tell (.ofFailure [toString e])
