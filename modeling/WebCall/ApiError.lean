import WebCall.Http.TransportError

/-!
# Errors of a call

How a call fails. An expired token is a special authorization failure: who only wants to know
whether to log in again asks `ApiError.isAuthorization`, and who can refresh a token asks
`ApiError.isTokenExpired` first.
-/
namespace WebCall

/-- What lies behind a generic error. -/
inductive Cause
  /-- The last attempt ended without a usable response. -/
  | transport (error : Http.TransportError)
  /-- Some other error, known by its text. -/
  | other (text : String)
  deriving DecidableEq, Repr

namespace Cause

/-- The text of a cause. -/
def message : Cause → String
  | transport error => error.message
  | other text => text

/-- The texts of a cause and of what it wraps, outermost first. -/
def chain : Cause → List String
  | transport error => error.message :: error.inner?.toList
  | other text => [text]

end Cause

/-- The failure of a call. -/
inductive ApiError
  /-- The request could not be completed. -/
  | api (message : String) (cause : Option Cause)
  /-- The credential was refused. -/
  | authorization (message : String)
  /-- The credential is no longer valid. -/
  | tokenExpired (message : String)
  deriving DecidableEq, Repr

namespace ApiError

/-- A generic failure without a cause. -/
def plain (message : String) : ApiError := api message none

/-- The failure of a call whose last attempt ended without a usable response. -/
def ofTransport (error : Http.TransportError) : ApiError :=
  api error.message (some (.transport error))

/-- True of both kinds of authorization failure. -/
def isAuthorization : ApiError → Bool
  | authorization _ => true
  | tokenExpired _ => true
  | api _ _ => false

/-- True of expired tokens alone. -/
def isTokenExpired : ApiError → Bool
  | tokenExpired _ => true
  | _ => false

/-- The message alone. -/
def message : ApiError → String
  | api m _ => m
  | authorization m => m
  | tokenExpired m => m

/-- The message with a word about the kind of failure in front, except for generic ones. -/
def display : ApiError → String
  | api m _ => m
  | authorization m => s!"authorization error: {m}"
  | tokenExpired m => s!"token expired: {m}"

/-- What lies behind the failure, if anything is known. -/
def cause? : ApiError → Option Cause
  | api _ cause => cause
  | _ => none

/-- The texts of the failure and of what lies behind it, outermost first. -/
def chain (e : ApiError) : List String :=
  e.display :: (e.cause?.map Cause.chain).getD []

end ApiError

end WebCall
