import WebCall.Call.Steered
import WebCall.Scheduler.Timer

/-!
# Many calls over one scheduler

Calls that run side by side, each with a calling thread, a token and a client state of its own, and
that share one timer with its workers. The state changes by moves: a thread starts its call, an
attempt goes on by a step, a worker takes a task that is due, a waiting thread looks into its cell,
a token is set, time passes. Moves of different calls may come in any order; `Crowd.play` chooses
one order, on a clock that jumps to the next moment at which something happens.

The timer keeps every task that it is handed and lets workers take it when it is due. Schedulers
with other habits have moves of their own: they run or drop a task while it is handed over, and they
run or drop a task that they kept whenever they like.

## Main definitions

* `Attempt.advance`: the next step of an attempt, as its own call sees it.
* `Crowd.move`: what a move does, and when it can be made.
* `Move.timely`: the moves of the timer.
* `Crowd.run`: move after move.
* `Crowd.play`: a run in which every call returns as early as it can.
-/
namespace WebCall.Call

/-- How often a waiting thread looks whether its token is set. -/
def pollInterval : Duration := .ofMillis 50

/-- How far an attempt has come. -/
inductive Stage
  /-- It is about to look at its token. -/
  | begun
  /-- Its request is with the client. -/
  | sent
  /-- It knows what it comes to. -/
  | ended (ending : Ending)
  /-- It has brought its result, and its caller is about to be dropped. -/
  | closing

/-- An attempt that is going on. -/
structure Attempt where
  /-- The caller that began it. -/
  caller : Caller
  /-- How far it has come. -/
  stage : Stage := .begun
  /-- Whether it runs on a thread of the scheduler rather than on the thread of its call. -/
  onWorker : Bool := false

/-- One call of a crowd. -/
structure Seat (σ : Type) where
  /-- What the call asks for. -/
  order : Order
  /-- The token that cancels it. -/
  token : TokenId
  /-- The state of its client. -/
  client : σ
  /-- Whether its thread started it. -/
  started : Bool := false
  /-- When its thread began to wait for the result. -/
  waiting : Option Instant := none
  /-- The cell that takes its result. -/
  cell : ResultCell Outcome := {}
  /-- What its thread got. -/
  result : Option Outcome := none

namespace Seat

variable {σ : Type}

/-- Brings a result to the cell of the call. -/
def bring (s : Seat σ) (outcome : Outcome) : Seat σ × List Event :=
  let r := s.cell.resolve outcome
  ({ s with cell := r.2 }, [.resolved r.1])

/-- The caller that the call begins with. -/
def caller (s : Seat σ) (call : Nat) : Caller :=
  { order := s.order, token := s.token, cell := call }

/-- Drops a caller of the call; a cell without a result gets one. -/
def abandon (s : Seat σ) : Seat σ × List Event :=
  if s.cell.resolved then (s, []) else s.bring (.error (.plain abandoned))

/-- An attempt leaves its thread. The thread of the call goes on to wait. -/
def leave (s : Seat σ) (onWorker : Bool) (now : Instant) : Seat σ :=
  if onWorker then s else { s with waiting := some now }

/-- The thread of the call looks into its cell, and returns if it gets something out of that. -/
def look (s : Seat σ) (cancelled : Bool) : Seat σ :=
  let r := s.cell.round cancelled
  { s with
    cell := r.2
    result := match r.1 with
      | .value outcome => some outcome
      | .cancelled => some (.error (.plain Bench.interruptedWait))
      | .blocked => s.result }

end Seat

/-- What a step of an attempt comes to for its call. -/
structure Advance (σ : Type) where
  /-- The call afterwards. -/
  seat : Seat σ
  /-- The attempt that is on the thread afterwards. -/
  attempt : Option Attempt
  /-- The task that the scheduler is to keep, with its delay. -/
  task : Option (Duration × Caller) := none
  /-- Whether the call's token is set. -/
  setsToken : Bool := false
  /-- What happens, oldest first. -/
  events : List Event := []

/-- The next step of an attempt. It looks at its token and sends its request; the answer comes in;
it brings its result to the cell, or hands the next attempt to the scheduler; its caller is dropped,
unless it was handed over. -/
def Attempt.advance {σ : Type} (client : Client σ) (cancelled : Bool) (now : Instant)
    (way : Handover) (a : Attempt) (s : Seat σ) : Advance σ :=
  let c := a.caller
  match a.stage with
  | .begun =>
    if cancelled then
      { seat := s
        attempt := some { a with stage := .ended (.resolve (.error (.ofTransport .interrupted))) } }
    else
      { seat := s, attempt := some { a with stage := .sent }, events := c.sendEvents cancelled }
  | .sent =>
    let reply := client s.client (c.sent cancelled)
    { seat := { s with client := reply.2 }
      attempt := some { a with stage := .ended (c.ending reply.1.outcome) }
      setsToken := reply.1.setsToken
      events := reply.1.records.map Event.noted ++ c.answerEvents reply.1.outcome }
  | .ended (.resolve outcome) =>
    let r := s.bring outcome
    { seat := r.1, attempt := some { a with stage := .closing }, events := r.2 }
  | .ended (.again delay) =>
    match way with
    | .keep =>
      { seat := s.leave a.onWorker now
        attempt := none
        task := some (delay, c.next)
        events := [c.handoverEvent delay] }
    | .run =>
      { seat := s
        attempt := some { a with caller := c.next, stage := .begun }
        events := [c.handoverEvent delay] }
    | .drop =>
      let r := s.abandon
      { seat := r.1.leave a.onWorker now
        attempt := none
        events := c.handoverEvent delay :: r.2 }
  | .closing =>
    let r := s.abandon
    { seat := r.1.leave a.onWorker now, attempt := none, events := r.2 }

/-- An event with its moment and its call. -/
structure Happening where
  /-- When it happened. -/
  time : Instant
  /-- The place of the call in the crowd. -/
  call : Nat
  /-- What happened. -/
  event : Event

/-- The state of all calls. -/
structure Crowd (σ : Type) where
  /-- The calls; a caller's `cell` is a place in this list. -/
  seats : List (Seat σ)
  /-- All tokens. -/
  tokens : Tokens := {}
  /-- The scheduler that all calls share, with the tasks that it keeps. -/
  timer : Timer Caller := {}
  /-- How many workers the timer has. -/
  workers : Nat := 1
  /-- The attempts that are going on. -/
  attempts : List Attempt := []
  /-- The time. -/
  clock : Instant := 0
  /-- What happened, oldest first. -/
  happenings : List Happening := []

/-- What may happen next in a crowd. -/
inductive Move
  /-- The thread of a call starts it. -/
  | start (call : Nat)
  /-- An attempt goes on by a step; `way` is what becomes of a task that it hands over. -/
  | advance (attempt : Nat) (way : Handover)
  /-- A worker takes the next task of the timer. -/
  | work
  /-- A scheduler runs the task that it keeps at a place, on a thread of its own. -/
  | run (place : Nat)
  /-- A scheduler drops the task that it keeps at a place. -/
  | drop (place : Nat)
  /-- The timer is closed. What it keeps is then dropped task by task. -/
  | close
  /-- A waiting thread looks into its cell. -/
  | poll (call : Nat)
  /-- A token is set from outside. -/
  | cancel (token : TokenId)
  /-- Time passes up to a moment. -/
  | pass (moment : Instant)
  deriving DecidableEq, Repr

/-- Whether a move can come up over a timer that stays open, while no token is set from outside. -/
def Move.timely : Move → Bool
  | start _ | work | poll _ | pass _ => true
  | advance _ way => way == .keep
  | run _ | drop _ | close | cancel _ => false

namespace Crowd

variable {σ : Type}

/-- Adds events of one call at the present moment. -/
def note (w : Crowd σ) (call : Nat) (events : List Event) : Crowd σ :=
  { w with happenings := w.happenings ++ events.map fun e => ⟨w.clock, call, e⟩ }

/-- Changes one call, with the events that go with the change. -/
def act (w : Crowd σ) (call : Nat) (seat : Seat σ) (events : List Event) : Crowd σ :=
  { w with seats := w.seats.set call seat }.note call events

/-- Drops a caller of a call. -/
def abandon (w : Crowd σ) (call : Nat) : Crowd σ :=
  match w.seats[call]? with
  | none => w
  | some s => w.act call s.abandon.1 s.abandon.2

/-- Hands a task to the timer; a closed timer drops it. -/
def submit (w : Crowd σ) (delay : Duration) (c : Caller) : Crowd σ :=
  match w.timer.schedule Timer.clockLimit w.clock delay c with
  | some timer => { w with timer }
  | none => w.abandon c.cell

/-- Puts what a step left of an attempt in its place. -/
def replace (w : Crowd σ) (index : Nat) : Option Attempt → Crowd σ
  | some a => { w with attempts := w.attempts.set index a }
  | none => { w with attempts := w.attempts.eraseIdx index }

/-- Puts into effect what a step of an attempt comes to, but for the task that it hands over. -/
def enact (w : Crowd σ) (index : Nat) (c : Caller) (r : Advance σ) : Crowd σ :=
  let w := (w.act c.cell r.seat r.events).replace index r.attempt
  { w with tokens := w.tokens.cancelIf c.token r.setsToken }

/-- Begins an attempt. -/
def begin (w : Crowd σ) (c : Caller) (onWorker : Bool) : Crowd σ :=
  { w with attempts := w.attempts ++ [{ caller := c, onWorker }] }

/-- The thread of a call starts it. A blank credential is refused at once. -/
def start? (w : Crowd σ) (call : Nat) : Option (Crowd σ) :=
  match w.seats[call]? with
  | none => none
  | some s =>
    if s.started then none
    else if Text.isAllBlank s.order.authorization then
      let refused : Outcome := .error (.plain Bench.blankAuthorization)
      some (w.act call { s with started := true, result := some refused } [])
    else
      some ((w.act call { s with started := true } []).begin (s.caller call) false)

/-- An attempt goes on by a step. -/
def advance? (client : Client σ) (w : Crowd σ) (index : Nat) (way : Handover) :
    Option (Crowd σ) :=
  match w.attempts[index]? with
  | none => none
  | some a =>
    match w.seats[a.caller.cell]? with
    | none => none
    | some s =>
      let r := a.advance client (w.tokens.isCancelled a.caller.token) w.clock way s
      let w := w.enact index a.caller r
      match r.task with
      | some (delay, next) => some (w.submit delay next)
      | none => some w

/-- A worker takes the next task, if it is due and a worker is free. -/
def work? (w : Crowd σ) : Option (Crowd σ) :=
  if w.workers ≤ w.attempts.countP (·.onWorker) then none
  else (w.timer.start? w.clock).map fun r => { w with timer := r.2 }.begin r.1.task true

/-- A scheduler runs a task that it keeps. -/
def run? (w : Crowd σ) (place : Nat) : Option (Crowd σ) :=
  (w.timer.queue[place]?).map fun e =>
    { w with timer := w.timer.remove place }.begin e.task true

/-- A scheduler drops a task that it keeps. -/
def drop? (w : Crowd σ) (place : Nat) : Option (Crowd σ) :=
  (w.timer.queue[place]?).map fun e =>
    { w with timer := w.timer.remove place }.abandon e.task.cell

/-- A waiting thread looks into its cell. -/
def poll? (w : Crowd σ) (call : Nat) : Option (Crowd σ) :=
  match w.seats[call]? with
  | none => none
  | some s =>
    if s.waiting.isNone || s.result.isSome then none
    else some (w.act call (s.look (w.tokens.isCancelled s.token)) [])

/-- What a move does; `none` where it cannot be made. -/
def move (client : Client σ) (w : Crowd σ) : Move → Option (Crowd σ)
  | .start call => w.start? call
  | .advance attempt way => w.advance? client attempt way
  | .work => w.work?
  | .run place => w.run? place
  | .drop place => w.drop? place
  | .close => some { w with timer := { w.timer with closed := true } }
  | .poll call => w.poll? call
  | .cancel token => some { w with tokens := w.tokens.cancel token }
  | .pass moment => if w.clock ≤ moment then some { w with clock := moment } else none

/-- Makes move after move; `none` where one of them cannot be made. -/
def run (client : Client σ) (w : Crowd σ) (moves : List Move) : Option (Crowd σ) :=
  moves.foldlM (move client) w

/-- The events of a call with their moments, oldest first. -/
def eventsOf (w : Crowd σ) (call : Nat) : List (Instant × Event) :=
  w.happenings.filterMap fun h => if h.call = call then some (h.time, h.event) else none

/-- The requests that a call sent. -/
def sentBy (w : Crowd σ) (call : Nat) : List Sent :=
  (w.eventsOf call).filterMap fun h => h.2.sent?

/-- When a call sent its first request. -/
def firstSend? (w : Crowd σ) (call : Nat) : Option Instant :=
  ((w.eventsOf call).find? fun h => h.2.sent?.isSome).map (·.1)

/-- When a waiting thread next looks at its token. -/
def nextPoll (since now : Instant) : Instant :=
  since + (now - since + pollInterval.nanos - 1) / pollInterval.nanos * pollInterval.nanos

/-- The moment from which a call's thread gets something out of a look into its cell. -/
def pollAt? (w : Crowd σ) (call : Nat) : Option Instant :=
  match w.seats[call]? with
  | none => none
  | some seat =>
    match seat.waiting, seat.result with
    | some since, none =>
      if seat.cell.slot.isSome then some w.clock
      else if w.tokens.isCancelled seat.token then some (nextPoll since w.clock)
      else none
    | _, _ => none

/-- Cancellations from outside: how long after its first request the token of a call is set. -/
abbrev Plan := List (Option Duration)

/-- The moment at which the plan sets the token of a call, unless it is set. -/
def cancelAt? (w : Crowd σ) (plan : Plan) (call : Nat) : Option (TokenId × Instant) :=
  match w.seats[call]?, (plan.getD call none), w.firstSend? call with
  | some seat, some delay, some first =>
    if w.tokens.isCancelled seat.token then none else some (seat.token, first + delay.nanos)
  | _, _, _ => none

/-- The move that comes next in a run that loses no time. -/
def nextMove? (plan : Plan) (w : Crowd σ) : Option Move :=
  let calls := List.range w.seats.length
  let ripe (m : Instant) : Bool := m ≤ w.clock
  match w.attempts with
  | _ :: _ => some (.advance 0 .keep)
  | [] =>
    match w.seats.findIdx? (!·.started) with
    | some call => some (.start call)
    | none =>
      match calls.find? fun i => (w.pollAt? i).any ripe with
      | some call => some (.poll call)
      | none =>
        match calls.findSome? fun i => (w.cancelAt? plan i).filter fun c => ripe c.2 with
        | some (token, _) => some (.cancel token)
        | none =>
          if w.timer.nextDue?.any ripe then some .work
          else if w.seats.all (·.result.isSome) then none
          else
            let moments := w.timer.nextDue?.toList ++ calls.filterMap w.pollAt? ++
              calls.filterMap fun i => (w.cancelAt? plan i).map (·.2)
            moments.min?.map .pass

/-- Makes moves until every call has returned or nothing more can happen. `fuel` bounds their
number. -/
def play (client : Client σ) (plan : Plan) : (fuel : Nat) → Crowd σ → Crowd σ
  | 0, w => w
  | fuel + 1, w =>
    match (w.nextMove? plan).bind (w.move client) with
    | some w => play client plan fuel w
    | none => w

/-- Enough moves for all calls: an attempt takes four steps, a pause and a worker, and a call has a
start, a setting of its token, a look into its cell and the pauses before them. -/
def playFuel (w : Crowd σ) : Nat :=
  w.seats.foldl (fun n s => n + 8 * (s.order.policy.maxAttempts.toNat + 2)) 8

/-- A crowd whose calls have not started. -/
def gather (workers : Nat) (calls : List (Order × σ)) : Crowd σ where
  seats := (List.range calls.length).zipWith
    (fun i c => { order := c.1, token := i, client := c.2 }) calls
  tokens := ⟨List.replicate calls.length false⟩
  workers := max 1 workers

end Crowd

end WebCall.Call
