import WebCall.ErrorBody
import WebCall.Http.Message
import WebCall.Retry.Policy

/-!
# Verdicts

What a response means for its call: the call is done, with the response or with a failure, or it may
be tried again after a delay. A verdict depends on the policy and on this one response alone.
-/
namespace WebCall.Call

/-- The result of a call. -/
abbrev Outcome := Except ApiError Http.Response

/-- What a response means for its call. -/
inductive Verdict
  /-- The call has its result. -/
  | done (outcome : Outcome)
  /-- The call may be tried again after a delay. -/
  | retry (delay : Duration)
  deriving Repr

/-- The name of the field that says how long to wait. -/
def retryAfterField : String := "Retry-After"

/-- The verdict on a response. A forbidden response is handed to the caller like a success, whatever
its body says. -/
def judge (policy : Retry.Policy) (response : Http.Response) : Verdict :=
  match Retry.StatusClass.ofCode response.status with
  | .success => .done (.ok response)
  | .busy => .retry policy.busyDelay
  | .badRequest => .done (.error ((ErrorBody.ofText response.body).toError .plain))
  | .notFound => .done (.error ((ErrorBody.ofText response.body).toError .plain))
  | .unauthorized => .done (.error ((ErrorBody.ofText response.body).toError .authorization))
  | .rateLimited =>
    match Retry.retryAfterSecs (response.field? retryAfterField) with
    | .ok secs => .retry (policy.rateLimitDelay secs)
    | .error e => .done (.error (.plain e.message))
  | .forbidden => .done (.ok response)
  | .serverError code =>
    .done (.error (.plain s!"Web API returned with error status: {code}"))

/-- How the log shows an authorization failure that is not reported. -/
def ignoredText : ErrorBody → String
  | .message text => s!"Message({Text.quoted text})"
  | .authorization text => s!"Authorization({Text.quoted text})"
  | .tokenExpired text => s!"TokenExpired({Text.quoted text})"

/-- What the log says about a response. -/
def responseRecords (response : Http.Response) : List Log.Record :=
  let note := Log.Record.mk .debug .attempts
  let body := ErrorBody.records response.body
  [note s!"response code: {response.status}",
    .mk .trace .attempts s!"response data: {response.body}"] ++
  match Retry.StatusClass.ofCode response.status with
  | .success => []
  | .busy =>
    [note s!"web API returned {response.status}: request accepted but not processed yet"]
  | .badRequest => body
  | .notFound => body
  | .unauthorized => body
  | .rateLimited =>
    match Retry.retryAfterSecs (response.field? retryAfterField) with
    | .ok secs => [note s!"web API rate limit exceeded; retry after {secs} seconds"]
    | .error _ => []
  | .forbidden =>
    match ErrorBody.ofText response.body with
    | .message text => body ++ [note s!"forbidden: {text}"]
    | other => body ++ [note s!"ignoring authorization error on 403: {ignoredText other}"]
  | .serverError _ => []

end WebCall.Call
