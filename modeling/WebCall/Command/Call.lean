import WebCall.Call.Steered
import WebCall.Command.Arguments
import WebCall.Command.RequestParts
import WebCall.Config.Settings

/-!
# The command that makes a call

Sends one request, with retries, and shows the response. Everything that the arguments give is
looked at before anything is sent: first the target, then the header texts in their order. Every
attempt sends the same request.

## Main definitions

* `CallPlan`: a call that is ready to be made.
* `CallArguments.plan`: the call that the arguments and the configuration describe.
* `CallArguments.run`: makes the call.
-/
namespace WebCall.Command

/-- Why the command failed. -/
inductive CallError
  /-- The target has no URL. -/
  | target (cause : TargetError)
  /-- A header text is refused. -/
  | header (cause : HeaderTextError)
  /-- The call failed. -/
  | failed (error : ApiError)
  deriving DecidableEq, Repr

namespace CallError

/-- What the user should do about the failure of a call. -/
def hint : ApiError → String
  | .tokenExpired _ => "access token expired; refresh it and retry"
  | .authorization _ => "authorization rejected; re-authenticate"
  | .api .. => "web API call failed"

/-- The texts of the error and of what lies behind it, outermost first. -/
def chain : CallError → List String
  | target cause => cause.chain
  | header cause => [cause.message]
  | failed error => hint error :: error.chain

/-- The failure of the call, if one was made. -/
def apiError? : CallError → Option ApiError
  | failed error => some error
  | _ => none

end CallError

/-- A call that is ready to be made. -/
structure CallPlan where
  /-- The method. -/
  method : Http.Method
  /-- The URL. -/
  url : String
  /-- The fields of the header texts, in their order; one that is repeated counts in its last
  place. -/
  fields : Http.Fields
  /-- The body. -/
  data : Option String
  /-- The credential. -/
  authorization : String
  deriving DecidableEq, Repr

namespace CallPlan

/-- The request of every attempt, before the credential is added. -/
def request (p : CallPlan) : Http.Request :=
  let r := p.fields.foldl (fun r f => r.setField f.1 f.2) (.new p.method p.url)
  match p.data with
  | some text => r.withBody (Utf8.encode text)
  | none => r

/-- What the call asks for under a policy. -/
def order (p : CallPlan) (policy : Retry.Policy) : Call.Order where
  build := fun _ => p.request
  authorization := p.authorization
  policy := policy

/-- What the log says when the call begins. -/
def record (p : CallPlan) : Log.Record := ⟨.info, .callCommand, s!"{p.method.name} {p.url}"⟩

end CallPlan

/-- The call that arguments describe under a configuration. -/
def CallArguments.plan (a : CallArguments) (config : Config) : Except CallError CallPlan :=
  match Target.resolve config.baseUrl a.target with
  | .error e => .error (.target e)
  | .ok url =>
    match a.headers.mapM HeaderText.field with
    | .error e => .error (.header e)
    | .ok fields =>
      .ok { method := a.method, url, fields, data := a.data, authorization := credential a.token }

/-- What the command prints of a response: its status, and its body unless that is empty. -/
def responseText (r : Http.Response) : String :=
  let status := s!"HTTP {r.status}\n"
  if r.body.isEmpty then status else status ++ s!"{r.body}\n"

/-- A run of the command. -/
structure CallRun (σ : Type) where
  /-- The response, or why there is none. -/
  result : Except CallError Http.Response
  /-- The client afterwards. -/
  client : σ
  /-- What happened in the call, oldest first. -/
  events : List Call.Event := []
  /-- What the log says. -/
  records : List Log.Record := []

namespace CallRun

/-- The requests that were sent, oldest first. -/
def sent {σ : Type} (r : CallRun σ) : List Call.Sent := r.events.filterMap Call.Event.sent?

/-- The result of the command for the result of its call. A call without a result counts as dropped;
as every task is run, there is none. -/
def resultOf : Option Call.Outcome → Except CallError Http.Response
  | some (.ok response) => .ok response
  | some (.error e) => .error (.failed e)
  | none => .error (.failed (.plain Call.abandoned))

end CallRun

/-- Runs the command. -/
def CallArguments.run {σ : Type} (a : CallArguments) (config : Config) (client : Call.Client σ)
    (start : σ) : CallRun σ :=
  match a.plan config with
  | .error e => { result := .error e, client := start }
  | .ok plan =>
    let bench : Call.Bench σ := { client := start }
    let r := bench.requestOwn client (plan.order config.effective.policy) []
    { result := CallRun.resultOf r.1
      client := r.2.client
      events := r.2.events
      records := plan.record :: r.2.events.flatMap Call.Event.records }

end WebCall.Command
