import WebCall.Http.Fields
import WebCall.Text.Utf8

/-!
# Requests and responses

A request as it is built for an attempt, with its method, and the response of a completed exchange.
-/
namespace WebCall.Http

/-- The methods that a request may use. -/
inductive Method
  | get
  | post
  | put
  | patch
  | delete
  deriving DecidableEq, Repr, Inhabited

namespace Method

/-- The name of a method on the request line. -/
def name : Method → String
  | get => "GET"
  | post => "POST"
  | put => "PUT"
  | patch => "PATCH"
  | delete => "DELETE"

/-- All methods. -/
def all : List Method := [get, post, put, patch, delete]

/-- The method of a name, in any case of its letters. -/
def ofName? (s : String) : Option Method :=
  all.find? fun m => m.name == Text.upperAll s

@[simp] theorem ofName?_name (m : Method) : ofName? m.name = some m := by
  cases m <;> decide

/-- The complaint about a name that is no method. -/
def unsupported (s : String) : String :=
  s!"unsupported HTTP method: {Text.upperAll s}"

end Method

/-- A request that has not been sent. -/
structure Request where
  /-- What is to be done with the resource. -/
  method : Method
  /-- Where the request goes, as the caller wrote it. -/
  url : String
  /-- The header fields, no two of one name when they were set through `setField`. -/
  fields : Fields := []
  /-- The body; an empty body differs from none. -/
  body : Option Bytes := none
  deriving DecidableEq, Repr, Inhabited

namespace Request

/-- A request without fields or body. -/
def new (method : Method) (url : String) : Request := { method, url }

/-- Sets a header field and removes all others of its name. -/
def setField (r : Request) (name value : String) : Request :=
  { r with fields := r.fields.set name value }

/-- Gives the request a body. -/
def withBody (r : Request) (body : Bytes) : Request := { r with body := some body }

/-- The value of a header field. -/
def field? (r : Request) (name : String) : Option String := r.fields.get? name

/-- A step in the making of a request. -/
inductive Step
  /-- Set a header field. -/
  | field (name value : String)
  /-- Give the request a body. -/
  | body (body : Bytes)
  deriving DecidableEq, Repr

/-- The name of the field that a step sets. -/
def Step.name? : Step → Option String
  | field name _ => some name
  | body _ => none

/-- A request after a step. -/
def step (r : Request) : Step → Request
  | .field name value => r.setField name value
  | .body body => r.withBody body

/-- The request that steps make out of a new one. -/
def make (method : Method) (url : String) (steps : List Step) : Request :=
  steps.foldl step (.new method url)

@[simp] theorem method_setField (r : Request) (n v : String) :
    (r.setField n v).method = r.method := rfl

@[simp] theorem url_setField (r : Request) (n v : String) : (r.setField n v).url = r.url := rfl

@[simp] theorem body_setField (r : Request) (n v : String) : (r.setField n v).body = r.body := rfl

@[simp] theorem fields_setField (r : Request) (n v : String) :
    (r.setField n v).fields = r.fields.set n v := rfl

end Request

/-- Status, header fields and body text of a completed exchange. -/
structure Response where
  /-- The status code. -/
  status : Nat
  /-- The header fields as they came; several may have one name. -/
  fields : Fields := []
  /-- The body text. -/
  body : String := ""
  deriving DecidableEq, Repr, Inhabited

/-- The value of the first header field of a name. -/
def Response.field? (r : Response) (name : String) : Option String := r.fields.get? name

end WebCall.Http
