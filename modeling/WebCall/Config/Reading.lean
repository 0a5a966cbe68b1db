import WebCall.Config.Settings
import WebCall.Toml.Document

/-!
# Configurations as TOML

The configuration that a TOML text holds. Keys that are not known are ignored, those that are
missing have their defaults. Settings are whole numbers that are not negative.
-/
namespace WebCall

/-- The value of a key as `read` takes it, or the default of a key that is missing. -/
def Toml.Table.readOr {α : Type} (t : Toml.Table) (key : String) (read : Toml.Item → Option α)
    (dflt : α) : Option α :=
  match t.get? key with
  | some item => read item
  | none => some dflt

namespace DispatchSettings

/-- The keys of the settings, in their order. -/
def keys : List String :=
  ["timeout_secs", "connect_timeout_secs", "max_attempts", "busy_delay_secs",
    "max_retry_after_secs", "scheduler_threads"]

/-- The number of an item. -/
def count? : Toml.Item → Option Nat
  | .integer n => if 0 ≤ n then some n.toNat else none
  | _ => none

/-- The number of an item that fits in 32 bits. -/
def word? (item : Toml.Item) : Option UInt32 :=
  (count? item).bind fun n => if n < Nat.pow 2 32 then some n.toUInt32 else none

/-- The settings of a table. -/
def ofTable? (t : Toml.Table) : Option DispatchSettings := do
  let d : DispatchSettings := {}
  return {
    timeoutSecs := ← t.readOr "timeout_secs" count? d.timeoutSecs
    connectTimeoutSecs := ← t.readOr "connect_timeout_secs" count? d.connectTimeoutSecs
    maxAttempts := ← t.readOr "max_attempts" word? d.maxAttempts
    busyDelaySecs := ← t.readOr "busy_delay_secs" count? d.busyDelaySecs
    maxRetryAfterSecs := ← t.readOr "max_retry_after_secs" (fun item => (count? item).map some) none
    schedulerThreads := ← t.readOr "scheduler_threads" count? d.schedulerThreads }

/-- The settings of an item. An array gives the values of the keys in their order, and what it holds
beyond them is ignored. A point of time counts as a table without known keys. -/
def ofItem? : Toml.Item → Option DispatchSettings
  | .table _ entries => ofTable? entries
  | .array items => ofTable? (keys.zip items)
  | .moment => some {}
  | _ => none

end DispatchSettings

namespace Config

/-- The text of an item. -/
def text? : Toml.Item → Option String
  | .string text => some text
  | _ => none

/-- The configuration of a table. -/
def ofTable? (t : Toml.Table) : Option Config := do
  return {
    baseUrl := ← t.readOr "base_url" (fun item => (text? item).map some) none
    dispatch := ← t.readOr "dispatch" (fun item => (DispatchSettings.ofItem? item).map some) none }

/-- The configuration of a text. -/
def ofText? (text : String) : Option Config := (Toml.Document.parse? text).bind ofTable?

/-- The text that stands for the default configuration. -/
def defaultText : String := ""

end Config

end WebCall
