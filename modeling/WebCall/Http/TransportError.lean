import WebCall.Duration

/-!
# Transport errors

Failures below the level of status codes: no usable response was received.
-/
namespace WebCall.Http

/-- A transfer that ended with an error code. -/
structure TransferFailure where
  /-- The error code. -/
  code : Nat
  /-- What else is known about the failure. -/
  detail : Option String := none
  deriving DecidableEq, Repr

namespace TransferFailure

/-- The scheme of the URL is not spoken. -/
def unsupportedProtocol : TransferFailure := ⟨1, none⟩

/-- The URL is no URL. -/
def malformedUrl : TransferFailure := ⟨3, none⟩

/-- The name of the host is not known. -/
def unknownHost : TransferFailure := ⟨6, none⟩

/-- The host cannot be reached. -/
def unreachable : TransferFailure := ⟨7, none⟩

/-- The peer replied with something other than HTTP. -/
def weirdReply : TransferFailure := ⟨8, none⟩

/-- The connection closed before the whole body was there. -/
def partialBody : TransferFailure := ⟨18, none⟩

/-- The URL names a file that cannot be read. -/
def unreadableFile : TransferFailure := ⟨37, none⟩

/-- A part of the reply is not what it should be. -/
def malformedPart : TransferFailure := ⟨43, none⟩

/-- The connection closed without an answer. -/
def emptyReply : TransferFailure := ⟨52, none⟩

/-- What was received is broken. -/
def brokenBody : TransferFailure := ⟨56, none⟩

/-- The body is encoded in a way that was not asked for. -/
def unknownEncoding : TransferFailure := ⟨61, none⟩

/-- A NUL stands where none may be. -/
def nul : TransferFailure := ⟨75, none⟩

/-- What an error code stands for. -/
def describe (code : Nat) : String :=
  match code with
  | 1 => "Unsupported protocol"
  | 3 => "URL using bad/illegal format or missing URL"
  | 6 => "Could not resolve hostname"
  | 7 => "Could not connect to server"
  | 8 => "Weird server reply"
  | 18 => "Transferred a partial file"
  | 28 => "Timeout was reached"
  | 37 => "Could not read a file:// file"
  | 42 => "Operation was aborted by an application callback"
  | 43 => "A part of the reply is malformed"
  | 52 => "Server returned nothing (no headers, no data)"
  | 56 => "Failure when receiving data from the peer"
  | 61 => "Unrecognized or bad HTTP Content or Transfer-Encoding"
  | 75 => "Conversion failed"
  | _ => "Unknown error"

/-- The code in brackets, its meaning, and the detail in parentheses if there is one. -/
def message (f : TransferFailure) : String :=
  let head := s!"[{f.code}] {describe f.code}"
  match f.detail with
  | some text => s!"{head} ({text})"
  | none => head

end TransferFailure

/-- Why no usable response was received. -/
inductive TransportError
  /-- The exchange took longer than its time limit. -/
  | timeout (limit : Duration)
  /-- The call was cancelled. -/
  | interrupted
  /-- The transfer failed. -/
  | transfer (failure : TransferFailure)
  /-- The system refused some input or output. -/
  | system (text : String)
  deriving DecidableEq, Repr

namespace TransportError

/-- The error that this one wraps, as text. -/
def inner? : TransportError → Option String
  | timeout _ => none
  | interrupted => none
  | transfer failure => some failure.message
  | system text => some text

/-- The text of the error. -/
def message : TransportError → String
  | timeout limit => s!"request timed out after {limit.secs}s"
  | interrupted => "request interrupted"
  | transfer failure => s!"transport error: {failure.message}"
  | system text => s!"transport error: {text}"

end TransportError

end WebCall.Http
