import WebCall.Call.Caller
import WebCall.Wire.Incoming
import WebCall.Wire.Observed
import WebCall.Wire.Outgoing

/-!
# Exchanges

One request and the reply to it, over a connection of their own. A set token keeps a request from
being sent, and ends an exchange that is going on. An exchange that is not over at its time limit
has failed.

## Main definitions

* `Answer`: what a peer does with a connection.
* `exchange`: a request and what becomes of it.
* `Peer.client`: a client whose connections all lead to one peer.
-/
namespace WebCall.Wire

open Http (TransferFailure TransportError)

/-- What a peer does with a connection, once it has read the request. -/
structure Answer where
  /-- The bytes that it writes. -/
  bytes : Bytes := []
  /-- Whether it keeps the connection open afterwards. -/
  stays : Bool := false
  /-- Whether the call's token is set before the peer writes anything. -/
  cancels : Bool := false
  deriving DecidableEq, Repr, Inhabited

/-- What an answer comes to. -/
def Answer.outcome (a : Answer) (timeout : Duration) : Except TransportError Http.Response :=
  let respond : Except TransferFailure Received → Except TransportError Http.Response
    | .ok received => .ok received.response
    | .error failure => .error (.transfer failure)
  if a.cancels then .error .interrupted
  else match Arrival.ofBytes a.bytes with
    | .settled result => respond result
    | .pending closed => if a.stays then .error (.timeout timeout) else respond closed

/-- A text with a NUL in it, which cannot be handed on. -/
def hasNul (text : String) : Bool := text.toList.contains '\x00'

/-- What is sent for a request, or why nothing is sent. -/
def prepare (r : Http.Request) : Except TransferFailure Outgoing :=
  if hasNul r.url || (headerLines r).any hasNul then .error .nul
  else (Address.ofUrl r.url).map fun address => Outgoing.ofRequest address r

/-- What the log says about an exchange. -/
def exchangeRecords (r : Http.Request) : Except TransportError Http.Response → List Log.Record
  | .ok response => [⟨.trace, .transfer, s!"{r.method.name} {r.url} -> {response.status}"⟩]
  | .error _ => []

/-- What a peer does with a connection on which these bytes come. It answers only what it can read,
and closes the connection otherwise. -/
def Answer.given (a : Answer) (bytes : Bytes) : Answer :=
  if (Observed.ofBytes? bytes).isSome then a else {}

/-- A request and what becomes of it: what is written, if a connection is made, and the result. -/
def exchange (sent : Call.Sent) (answer : Answer) :
    Option Outgoing × Except TransportError Http.Response :=
  if sent.cancelled then (none, .error .interrupted)
  else match prepare sent.request with
    | .error failure => (none, .error (.transfer failure))
    | .ok outgoing => (some outgoing, (answer.given outgoing.bytes).outcome sent.timeout)

/-- A peer with its answers, each for one connection. The last answer is repeated for ever. -/
structure Peer where
  /-- The answers that are left before the last. -/
  ahead : List Answer
  /-- The last answer. -/
  last : Answer
  /-- The requests that it has read, oldest first. -/
  seen : List Observed := []

namespace Peer

/-- The answer to the next connection. -/
def answer (p : Peer) : Answer := p.ahead.headD p.last

/-- The peer after a connection. -/
def served (p : Peer) (outgoing : Outgoing) : Peer :=
  { p with
    ahead := p.ahead.tail
    seen := p.seen ++ (Observed.ofBytes? outgoing.bytes).toList }

/-- A client whose connections all lead to one peer. -/
def client : Call.Client Peer := fun p sent =>
  let done := exchange sent p.answer
  match done.1 with
  | none => ({ outcome := done.2 }, p)
  | some outgoing =>
    ({ outcome := done.2
       cancels := (p.answer.given outgoing.bytes).cancels
       records := exchangeRecords sent.request done.2 }, p.served outgoing)

end Peer

end WebCall.Wire
