import Std.Async.DNS
import Std.Async.TCP
import Std.Async.Timer
import WebCall.Wire.Exchange

/-!
# The network

The outer layer between exchanges and the network: one connection for each request. What is sent and
what the received bytes amount to is told by `Wire`; here they are only moved.
-/
namespace WebCall.Network

open Std.Async Std.Net
open Http (TransferFailure TransportError)

/-- A number of milliseconds that a timer takes for a duration. -/
def timerMillis (d : Duration) : Std.Time.Millisecond.Offset :=
  .ofNat (min (d.nanos / 1000000) (Nat.pow 2 60))

/-- Ends an action that takes too long. A limit of zero is none. -/
def within {α : Type} (limit : Duration) (act : Async (Except TransportError α)) :
    Async (Except TransportError α) :=
  let late : Except TransportError α := .error (.timeout limit)
  let _ : Inhabited (Except TransportError α) := ⟨late⟩
  if limit = .zero then act
  else Async.race act (do sleep (timerMillis limit); return late)

/-- The address of a socket. -/
def socketAddress (ip : IPAddr) (port : Nat) : SocketAddress :=
  match ip with
  | .v4 addr => .v4 ⟨addr, port.toUInt16⟩
  | .v6 addr => .v6 ⟨addr, port.toUInt16⟩

/-- A host without brackets. -/
def plainHost (a : Wire.Address) : String :=
  .ofList (a.host.filter fun c => c != '[' && c != ']')

/-- Connects to the first of the host's numbers that answers. -/
def connect (a : Wire.Address) : Async (Except TransportError TCP.Socket.Client) := do
  let numbers ← try DNS.getAddrInfo (plainHost a) "" catch _ => pure #[]
  if numbers.isEmpty then return .error (.transfer .unknownHost)
  for ip in numbers do
    let socket ← TCP.Socket.Client.mk
    let connected ← try
        socket.connect (socketAddress ip a.port)
        pure true
      catch _ => pure false
    if connected then return .ok socket
  return .error (.transfer .unreachable)

/-- Receives until nothing that comes later matters. -/
partial def receive (socket : TCP.Socket.Client) (soFar : Bytes) :
    Async (Except TransportError Http.Response) := do
  let respond : Except TransferFailure Wire.Received → Except TransportError Http.Response
    | .ok received => .ok received.response
    | .error failure => .error (.transfer failure)
  match Wire.Arrival.ofBytes soFar with
  | .settled result => return respond result
  | .pending closed =>
    match ← socket.recv? 65536 with
    | none => return respond closed
    | some bytes => receive socket (soFar ++ bytes.toList)

/-- Sends a request on a new connection and receives what comes back. -/
def converse (connectLimit : Duration) (a : Wire.Address) (o : Wire.Outgoing) :
    Async (Except TransportError Http.Response) := do
  match ← within connectLimit (connect a) with
  | .error e => return .error e
  | .ok socket =>
    try
      socket.send ⟨o.bytes.toArray⟩
      receive socket []
    catch _ => return .error (.transfer .brokenBody)

/-- A request and what becomes of it. -/
def exchange (connectLimit : Duration) (sent : Call.Sent) : IO Call.Reply := do
  let outcome ← match Wire.prepare sent.request, Wire.Address.ofUrl sent.request.url with
    | .ok outgoing, .ok address =>
      (within sent.timeout (converse connectLimit address outgoing)).block
    | .error failure, _ => pure (.error (.transfer failure))
    | _, .error failure => pure (.error (.transfer failure))
  return { outcome, records := Wire.exchangeRecords sent.request outcome }

end WebCall.Network
