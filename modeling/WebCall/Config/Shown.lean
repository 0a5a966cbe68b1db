import WebCall.Config.Settings
import WebCall.Text.Quoted

/-!
# Configurations as users see them

A configuration as a list with one setting a line, and as the log shows it. The list has the
settings in force; the log shows what the file says.
-/
namespace WebCall

/-- The lines of the settings. -/
def DispatchSettings.lines (s : DispatchSettings) : List String :=
  let longest := (s.maxRetryAfterSecs.map toString).getD "(server decides)"
  [s!"timeout_secs: {s.timeoutSecs}",
    s!"connect_timeout_secs: {s.connectTimeoutSecs}",
    s!"max_attempts: {s.maxAttempts}",
    s!"busy_delay_secs: {s.busyDelaySecs}",
    s!"max_retry_after_secs: {longest}",
    s!"scheduler_threads: {s.schedulerThreads}"]

namespace Config

/-- The lines that show a configuration and where its file is. -/
def lines (path : String) (c : Config) : List String :=
  let base := c.baseUrl.getD "(none)"
  s!"config file: {path}" :: s!"base_url: {base}" :: c.effective.lines

/-- The list for users. -/
def listing (path : String) (c : Config) : String := .join ((c.lines path).map (· ++ "\n"))

end Config

/-- How the log shows a value that may be missing. -/
def shownOption : Option String → String
  | some text => s!"Some({text})"
  | none => "None"

/-- How the log shows a value with named parts. -/
def shownParts (name : String) (parts : List (String × String)) : String :=
  let inner := ", ".intercalate (parts.map fun p => s!"{p.1}: {p.2}")
  s!"{name} \x7b {inner} \x7d"

/-- How the log shows settings. -/
def DispatchSettings.shown (s : DispatchSettings) : String :=
  shownParts "DispatchConfig"
    [("timeout_secs", toString s.timeoutSecs),
      ("connect_timeout_secs", toString s.connectTimeoutSecs),
      ("max_attempts", toString s.maxAttempts),
      ("busy_delay_secs", toString s.busyDelaySecs),
      ("max_retry_after_secs", shownOption (s.maxRetryAfterSecs.map toString)),
      ("scheduler_threads", toString s.schedulerThreads)]

/-- How the log shows a configuration. -/
def Config.shown (c : Config) : String :=
  shownParts "CallguardConfig"
    [("base_url", shownOption (c.baseUrl.map Text.quoted)),
      ("dispatch", shownOption (c.dispatch.map DispatchSettings.shown))]

end WebCall
