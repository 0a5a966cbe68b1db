import WebCall.Duration
import WebCall.Text.Ascii
import WebCall.Text.Blank
import WebCall.Text.Quoted

/-!
# Retry policies

How often a call is attempted, how long one exchange may take, and how long to wait in between. What
a response asks for is told by its status code and, when there were too many requests, by its
Retry-After field. Only a count of whole seconds is understood there: blanks, at most one plus sign,
decimal digits, blanks. Dates, negative counts and counts that do not fit 64 bits are refused.

## Main definitions

* `StatusClass.ofCode`: what a status code means for a call.
* `retryAfterSecs`: the seconds that a Retry-After field asks for.
* `Policy.decide`, `Policy.rateLimitDelay`: what comes after an attempt, and when.
-/
namespace WebCall.Retry

/-- What a status code means for a call. Only the codes that `StatusClass.ofCode` names have a
meaning of their own; every other code is an error of the server. -/
inductive StatusClass
  /-- The request was served. -/
  | success
  /-- The request is still being worked on, or the server is overloaded. -/
  | busy
  | badRequest
  | unauthorized
  /-- Too many requests; the server says how long to wait. -/
  | rateLimited
  /-- The caller gets the response and judges it. -/
  | forbidden
  | notFound
  /-- Any other code; never retried. -/
  | serverError (code : Nat)
  deriving DecidableEq, Repr, Inhabited

/-- The class of a status code. -/
def StatusClass.ofCode (code : Nat) : StatusClass :=
  if code = 200 ∨ code = 201 ∨ code = 204 ∨ code = 304 then success
  else if code = 202 ∨ code = 503 then busy
  else if code = 400 then badRequest
  else if code = 401 then unauthorized
  else if code = 429 then rateLimited
  else if code = 403 then forbidden
  else if code = 404 then notFound
  else serverError code

/-- Why a Retry-After field gives no delay. -/
inductive RetryAfterError
  /-- The response has no such field. -/
  | absent
  /-- The field holds something else than a count of seconds. -/
  | malformed (value : String)
  deriving DecidableEq, Repr

/-- The text of the error. -/
def RetryAfterError.message : RetryAfterError → String
  | absent => "rate limited without a Retry-After header"
  | malformed value => s!"invalid Retry-After header: {Text.quoted value}"

/-- The seconds that a Retry-After field asks for. -/
def retryAfterSecs : Option String → Except RetryAfterError Nat
  | none => .error .absent
  | some value =>
    match Text.count? (Text.trimBoth value.toList) with
    | some secs => .ok secs
    | none => .error (.malformed value)

/-- The limits and waits of a call. -/
structure Policy where
  /-- How many attempts a call has, the first included. A call is always attempted once. -/
  maxAttempts : UInt32 := 5
  /-- The time limit of one exchange. -/
  timeout : Duration := .ofSecs 30
  /-- The wait after a busy response. -/
  busyDelay : Duration := .ofSecs 5
  /-- The longest wait that a server may ask for; `none` trusts the server. -/
  maxRetryAfter : Option Duration := none
  deriving DecidableEq, Repr, Inhabited

/-- What happens after an attempt that may be tried again. -/
inductive Decision
  /-- There is no attempt left. -/
  | giveUp
  /-- The next attempt starts after a delay. -/
  | retryAfter (delay : Duration)
  deriving DecidableEq, Repr

namespace Policy

/-- The decision after attempt number `attempt`, counted from one, which asked for `delay`. -/
def decide (p : Policy) (attempt : Nat) (delay : Duration) : Decision :=
  if p.maxAttempts.toNat ≤ attempt then .giveUp else .retryAfter delay

/-- The wait after a response that asks for `secs` seconds. -/
def rateLimitDelay (p : Policy) (secs : Nat) : Duration :=
  match p.maxRetryAfter with
  | some cap => (Duration.ofSecs secs).least cap
  | none => .ofSecs secs

end Policy

end WebCall.Retry
