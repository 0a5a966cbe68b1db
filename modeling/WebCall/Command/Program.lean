import WebCall.Command.Call
import WebCall.Command.Report
import WebCall.Config.Load
import WebCall.Config.Shown
import WebCall.Log.Filter
import WebCall.Log.Setup

/-!
# The program

A run from its arguments to its report. First the log is set up, then the arguments are read, then
the configuration is loaded, and only then a request may be sent. Arguments that ask for nothing, or
for help, are answered before the configuration is looked at. A log that cannot be set up stops
nothing: its records go to the error stream.

## Main definitions

* `Start.prepare`: everything up to the point where a call is made.
* `Start.run`: a whole run, with any client.
-/
namespace WebCall.Command

/-- What the program is started with. -/
structure Start where
  /-- The arguments. -/
  arguments : List String
  /-- What the environment says about directories. -/
  places : Places
  /-- The token of the environment. -/
  token : Option String := none
  /-- What the environment asks of the log. -/
  logRequest : Option String := none
  deriving DecidableEq, Repr

/-- What a run has come to. -/
inductive Stage
  /-- The run is over. -/
  | ended (report : Report)
  /-- A call is to be made. -/
  | calling (arguments : CallArguments) (config : Config)
  deriving DecidableEq, Repr

/-- A run before a call is made. -/
structure Preparation where
  /-- What comes next. -/
  stage : Stage
  /-- The files. -/
  files : FileTree
  /-- Whether the log is in its file. -/
  hasLogFile : Bool
  /-- What was said for the log so far. -/
  records : List Log.Record

/-- A whole run. -/
structure Run (σ : Type) where
  /-- What the user is told. -/
  report : Report
  /-- The files. -/
  files : FileTree
  /-- Whether the log is in its file. -/
  hasLogFile : Bool
  /-- The records that the log took. -/
  records : List Log.Record
  /-- The client. -/
  client : σ

/-- The report on a call. -/
def Report.ofCall : Except CallError Http.Response → Report
  | .ok response => { output := responseText response }
  | .error e => ofFailure e.chain

namespace Start

/-- What the log says about a configuration. -/
def configRecord (c : Config) : Log.Record := ⟨.debug, .commandLine, s!"loaded config: {c.shown}"⟩

/-- Loads the configuration and goes on with it. -/
def withConfig (s : Start) (files : FileTree) (next : Config → Stage) :
    Stage × FileTree × List Log.Record :=
  let loading := Config.loadUsual files s.places
  match loading.result with
  | .ok config => (next config, loading.files, loading.records ++ [configRecord config])
  | .error e => (.ended (.ofFailure e.chain), loading.files, loading.records)

/-- What follows once the log is set up. -/
def proceed (s : Start) (files : FileTree) : Stage × FileTree × List Log.Record :=
  match Ask.ofArguments s.token s.arguments with
  | .refused error => (.ended (.ofUsage error), files, [])
  | .help topic => (.ended { output := topic.text }, files, [])
  | .config =>
    s.withConfig files fun config => .ended { output := config.listing s.places.configFile }
  | .call arguments => s.withConfig files fun config => .calling arguments config

/-- A run up to the point where a call is made. -/
def prepare (s : Start) (files : FileTree) : Preparation :=
  let log := Log.setUp files s.places.logFile false
  let r := s.proceed log.files
  { stage := r.1, files := r.2.1, hasLogFile := log.result.isOk, records := log.records ++ r.2.2 }

/-- What the log takes of records. -/
def logged (s : Start) (records : List Log.Record) : List Log.Record :=
  records.filter (Log.Filter.ofRequest s.logRequest).takes

/-- A whole run. -/
def run {σ : Type} (s : Start) (files : FileTree) (client : Call.Client σ) (start : σ) : Run σ :=
  let p := s.prepare files
  let done (report : Report) (records : List Log.Record) (after : σ) : Run σ :=
    { report
      files := p.files
      hasLogFile := p.hasLogFile
      records := s.logged (p.records ++ records)
      client := after }
  match p.stage with
  | .ended report => done report [] start
  | .calling arguments config =>
    let r := arguments.run config client start
    done (.ofCall r.result) r.records r.client

end Start

end WebCall.Command
