import WebCall.ApiError
import WebCall.Json.Reader
import WebCall.Log.Record

/-!
# Bodies of error responses

What the body of an error response says went wrong. Two shapes are known: an object whose `error` is
an object with a `message`, from the web API itself, and an object with an `error_description`, from
its authorization service. The first is looked for first. Only a message of the first shape is
searched for a word about expiry.
-/
namespace WebCall

/-- What an error body says. -/
inductive ErrorBody
  /-- An ordinary message, or `unknownResponse`. -/
  | message (text : String)
  /-- The description that the authorization service gives. -/
  | authorization (text : String)
  /-- A message about an expired token. -/
  | tokenExpired (text : String)
  deriving DecidableEq, Repr

namespace ErrorBody

/-- The message of a body in neither shape. -/
def unknownResponse : String := "Unknown response"

/-- The word that tells of an expired token. -/
def expiryWord : String := "expired"

/-- What was found in a body. -/
inductive Finding
  /-- The body is no JSON text. -/
  | notJson
  /-- The message of the web API. -/
  | message (text : String)
  /-- The description of the authorization service. -/
  | description (text : String)
  /-- A JSON text in neither shape. -/
  | neither
  deriving DecidableEq, Repr

/-- The scalar text of an object's key. -/
def scalarOf? (members : List (String × Json)) (key : String) : Option String :=
  (Json.lookup members key).bind Json.scalarText?

/-- The message inside an object's `error`. -/
def messageOf? (members : List (String × Json)) : Option String :=
  ((Json.lookup members "error").bind Json.members?).bind (scalarOf? · "message")

/-- What is found in an object. -/
def Finding.ofMembers (members : List (String × Json)) : Finding :=
  match messageOf? members with
  | some text => .message text
  | none =>
    match scalarOf? members "error_description" with
    | some text => .description text
    | none => .neither

/-- What is found in a body. -/
def Finding.ofText (body : String) : Finding :=
  match Json.parse? body with
  | none => .notJson
  | some value =>
    match value.members? with
    | some members => .ofMembers members
    | none => .neither

/-- What a finding means. -/
def ofFinding : Finding → ErrorBody
  | .notJson => .message unknownResponse
  | .message text =>
    if Text.contains text.toList expiryWord.toList then .tokenExpired text else .message text
  | .description text => .authorization text
  | .neither => .message unknownResponse

/-- What a body says. Every body says something. -/
def ofText (body : String) : ErrorBody := ofFinding (.ofText body)

/-- The failure that a body stands for. An ordinary message becomes the kind of failure that
`onMessage` makes of it; the others keep their own kind. -/
def toError (onMessage : String → ApiError) : ErrorBody → ApiError
  | message text => onMessage text
  | authorization text => .authorization text
  | tokenExpired text => .tokenExpired text

/-- What the log says about a body. -/
def records (body : String) : List Log.Record :=
  let note := Log.Record.mk .debug .errorBody
  match Finding.ofText body with
  | .notJson => [note "response was not json"]
  | .message text => [note s!"error response: {text}"]
  | .description text => [note s!"authorization error: {text}"]
  | .neither => [note s!"unknown response: {body}"]

end ErrorBody

end WebCall
