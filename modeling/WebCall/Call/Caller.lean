import WebCall.Call.Verdict
import WebCall.Token

/-!
# Callers

A caller is what one attempt of a call hands to the next: what the call asks for, and how many
attempts it has had. At any time a call has at most one caller. An attempt begins by looking at the
call's token; if it is not set, the request is built and sent. What comes back ends the call or asks
for another attempt after a delay.

## Main definitions

* `Caller.request`: the request of the attempt that is about to begin.
* `Caller.ending`: what the answer to it comes to.
* `Event`: what can be seen of an attempt.
-/
namespace WebCall.Call

/-- What a call asks for. -/
structure Order where
  /-- The request that the builder makes at its `n`-th invocation, counted from zero. -/
  build : Nat → Http.Request
  /-- The credential. -/
  authorization : String
  /-- The limits and waits. -/
  policy : Retry.Policy

/-- What one attempt hands to the next. -/
structure Caller where
  /-- What the call asks for. -/
  order : Order
  /-- The token that cancels the call. -/
  token : TokenId
  /-- Where the call's result goes. -/
  cell : Nat
  /-- How many attempts were begun. -/
  attempts : Nat := 0
  /-- How often the builder was invoked. -/
  built : Nat := 0

/-- A request as it is handed to the client. -/
structure Sent where
  /-- The request. -/
  request : Http.Request
  /-- The time limit of the exchange. -/
  timeout : Duration
  /-- Whether the token is set at this moment. -/
  cancelled : Bool
  deriving DecidableEq, Repr

/-- What a client gives back for a request. -/
structure Reply where
  /-- The response, or why there is none. -/
  outcome : Except Http.TransportError Http.Response
  /-- Whether the token was set while the exchange was going on. -/
  cancels : Bool := false
  /-- What the client has to say for the log. -/
  records : List Log.Record := []

/-- Whether the token is set after the exchange because of it. An interrupted exchange sets it. -/
def Reply.setsToken (r : Reply) : Bool :=
  r.cancels || match r.outcome with
    | .error .interrupted => true
    | _ => false

/-- A client, as a function on its own state. -/
abbrev Client (σ : Type) := σ → Sent → Reply × σ

/-- What an attempt comes to. -/
inductive Ending
  /-- The call has its result. -/
  | resolve (outcome : Outcome)
  /-- The next attempt is to start after a delay. -/
  | again (delay : Duration)

/-- The name of the field that carries the credential. -/
def authorizationField : String := "Authorization"

/-- The message of a call that used up its attempts. -/
def exhausted (attempts : Nat) : String :=
  s!"Could not reach the web API after {attempts} retries."

/-- The message of a call that was dropped without a result. -/
def abandoned : String := "call abandoned before completion"

namespace Caller

/-- The request of the attempt that is about to begin: what the builder makes, with the credential
in place of any other. -/
def request (c : Caller) : Http.Request :=
  (c.order.build c.built).setField authorizationField c.order.authorization

/-- What the attempt that is about to begin hands to the client. -/
def sent (c : Caller) (cancelled : Bool) : Sent :=
  ⟨c.request, c.order.policy.timeout, cancelled⟩

/-- The caller of the next attempt, after one that sent its request. -/
def next (c : Caller) : Caller := { c with attempts := c.attempts + 1, built := c.built + 1 }

/-- What the attempt that is going on comes to, once its answer is there. `c` is the caller that
began the attempt. -/
def ending (c : Caller) (answer : Except Http.TransportError Http.Response) : Ending :=
  match answer with
  | .error e => .resolve (.error (.ofTransport e))
  | .ok response =>
    match judge c.order.policy response with
    | .done outcome => .resolve outcome
    | .retry delay =>
      match c.order.policy.decide (c.attempts + 1) delay with
      | .giveUp => .resolve (.error (.plain (exhausted (c.attempts + 1))))
      | .retryAfter delay => .again delay

/-- Another attempt is asked for only while the budget lasts. -/
theorem attempts_lt_of_ending {c : Caller} {answer} {delay : Duration}
    (h : c.ending answer = .again delay) : c.attempts + 1 < c.order.policy.maxAttempts.toNat := by
  unfold ending Retry.Policy.decide at h
  grind

@[simp] theorem attempts_next (c : Caller) : c.next.attempts = c.attempts + 1 := rfl

@[simp] theorem built_next (c : Caller) : c.next.built = c.built + 1 := rfl

@[simp] theorem order_next (c : Caller) : c.next.order = c.order := rfl

@[simp] theorem token_next (c : Caller) : c.next.token = c.token := rfl

@[simp] theorem cell_next (c : Caller) : c.next.cell = c.cell := rfl

end Caller

/-- What can be seen of a call's attempts. -/
inductive Event
  /-- The builder was invoked. -/
  | built
  /-- A request was handed to the client. -/
  | sent (sent : Sent)
  /-- The client spoke. -/
  | noted (record : Log.Record)
  /-- A response came to the attempt of this number. -/
  | answered (attempt : Nat) (response : Http.Response)
  /-- The attempt of this number got no response. -/
  | failed (attempt : Nat) (error : Http.TransportError)
  /-- After the attempt of this number, the next one was handed to the scheduler. -/
  | scheduled (attempt : Nat) (delay : Duration)
  /-- The budget was used up. -/
  | gaveUp
  /-- A result was brought to the call's cell; it is stored if it is the first. -/
  | resolved (stored : Bool)

namespace Event

/-- The request of an event, if it is one of sending. -/
def sent? : Event → Option Sent
  | sent s => some s
  | _ => none

/-- Whether an event is an invocation of the builder. -/
def isBuilt : Event → Bool
  | built => true
  | _ => false

/-- The delay of an event, if it is one of scheduling. -/
def delay? : Event → Option Duration
  | scheduled _ delay => some delay
  | _ => none

/-- What the log says about an event. -/
def records : Event → List Log.Record
  | built => []
  | sent _ => []
  | noted record => [record]
  | answered _ response => responseRecords response
  | failed attempt error => [.mk .debug .attempts s!"attempt {attempt} failed: {error.message}"]
  | scheduled attempt delay =>
    [.mk .debug .attempts s!"web API call attempt {attempt}; retrying in {delay.secs}s"]
  | gaveUp =>
    [.mk .warn .attempts "giving up on web API call; check network connectivity"]
  | resolved true => []
  | resolved false =>
    [.mk .warn .resultCell "result already resolved; ignoring second resolution"]

end Event

namespace Caller

/-- The events of sending the request of an attempt. -/
def sendEvents (c : Caller) (cancelled : Bool) : List Event := [.built, .sent (c.sent cancelled)]

/-- The events that an answer brings about at once. -/
def answerEvents (c : Caller) (answer : Except Http.TransportError Http.Response) : List Event :=
  match answer with
  | .error e => [.failed (c.attempts + 1) e]
  | .ok response =>
    .answered (c.attempts + 1) response ::
    match judge c.order.policy response with
    | .done _ => []
    | .retry delay =>
      match c.order.policy.decide (c.attempts + 1) delay with
      | .giveUp => [.gaveUp]
      | .retryAfter _ => []

/-- The event of handing the next attempt to the scheduler. -/
def handoverEvent (c : Caller) (delay : Duration) : Event := .scheduled (c.attempts + 1) delay

variable (c : Caller) (answer : Except Http.TransportError Http.Response)

@[simp] theorem filterMap_sent?_sendEvents (cancelled : Bool) :
    (c.sendEvents cancelled).filterMap Event.sent? = [c.sent cancelled] := rfl

@[simp] theorem filterMap_delay?_sendEvents (cancelled : Bool) :
    (c.sendEvents cancelled).filterMap Event.delay? = [] := rfl

@[simp] theorem countP_isBuilt_sendEvents (cancelled : Bool) :
    (c.sendEvents cancelled).countP Event.isBuilt = 1 := rfl

/-- Among the events of an answer there is neither a request nor a wait. -/
theorem answerEvents_cases {e : Event} (h : e ∈ c.answerEvents answer) :
    (∃ n r, e = .answered n r) ∨ (∃ n x, e = .failed n x) ∨ e = .gaveUp := by
  unfold answerEvents at h
  split at h
  · simp_all
  · rcases List.mem_cons.1 h with h | h
    · exact .inl ⟨_, _, h⟩
    · split at h
      · cases h
      · split at h
        · exact .inr (.inr (List.mem_singleton.1 h))
        · cases h

@[simp] theorem filterMap_sent?_answerEvents :
    (c.answerEvents answer).filterMap Event.sent? = [] := by
  rw [List.filterMap_eq_nil_iff]
  intro e he
  rcases c.answerEvents_cases answer he with ⟨_, _, rfl⟩ | ⟨_, _, rfl⟩ | rfl <;> rfl

@[simp] theorem filterMap_delay?_answerEvents :
    (c.answerEvents answer).filterMap Event.delay? = [] := by
  rw [List.filterMap_eq_nil_iff]
  intro e he
  rcases c.answerEvents_cases answer he with ⟨_, _, rfl⟩ | ⟨_, _, rfl⟩ | rfl <;> rfl

@[simp] theorem countP_isBuilt_answerEvents :
    (c.answerEvents answer).countP Event.isBuilt = 0 := by
  rw [List.countP_eq_zero]
  intro e he
  rcases c.answerEvents_cases answer he with ⟨_, _, rfl⟩ | ⟨_, _, rfl⟩ | rfl <;>
    simp [Event.isBuilt]

end Caller

namespace Event

@[simp] theorem sent?_noted (record : Log.Record) : (noted record).sent? = none := rfl

@[simp] theorem delay?_noted (record : Log.Record) : (noted record).delay? = none := rfl

@[simp] theorem isBuilt_noted (record : Log.Record) : (noted record).isBuilt = false := rfl

end Event

end WebCall.Call
