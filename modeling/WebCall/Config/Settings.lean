import WebCall.Retry.Policy

/-!
# Settings

The settings that a configuration file holds: a base for relative targets, and a section on how
calls are made. Waits and limits are whole seconds.
-/
namespace WebCall

/-- How calls are made. -/
structure DispatchSettings where
  /-- The time limit of one exchange. -/
  timeoutSecs : Nat := 30
  /-- The time limit for making a connection. -/
  connectTimeoutSecs : Nat := 15
  /-- How many attempts a call has. -/
  maxAttempts : UInt32 := 5
  /-- The wait after a busy response. -/
  busyDelaySecs : Nat := 5
  /-- The longest wait that a server may ask for, if there is a limit. -/
  maxRetryAfterSecs : Option Nat := none
  /-- How many workers run delayed attempts. -/
  schedulerThreads : Nat := 2
  deriving DecidableEq, Repr, Inhabited

namespace DispatchSettings

/-- The policy that the settings describe. No attempt at all cannot be asked for. -/
def policy (s : DispatchSettings) : Retry.Policy where
  maxAttempts := if s.maxAttempts = 0 then 1 else s.maxAttempts
  timeout := .ofSecs s.timeoutSecs
  busyDelay := .ofSecs s.busyDelaySecs
  maxRetryAfter := s.maxRetryAfterSecs.map .ofSecs

/-- The time limit for making a connection. -/
def connectTimeout (s : DispatchSettings) : Duration := .ofSecs s.connectTimeoutSecs

end DispatchSettings

/-- A configuration. -/
structure Config where
  /-- What relative targets are appended to. -/
  baseUrl : Option String := none
  /-- The section on calls, if there is one. -/
  dispatch : Option DispatchSettings := none
  deriving DecidableEq, Repr, Inhabited

namespace Config

/-- The settings in force: those of the section, or the defaults. -/
def effective (c : Config) : DispatchSettings := c.dispatch.getD {}

end Config

end WebCall
