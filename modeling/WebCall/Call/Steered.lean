import WebCall.Call.Caller
import WebCall.ResultCell

/-!
# Calls under a steered scheduler

A call from its first attempt to its result, on one thread. The scheduler is told beforehand what to
do with each task that it is handed: run it at once, drop it, or keep it for later, and whether the
call's token is set first. Tasks that are kept stay parked in the state until someone runs or drops
them. The client is any function on a state of its own.

## Main definitions

* `Bench.attempt`: all attempts that follow from one, up to a result or a parked task.
* `Bench.request`: a call with its wait for the result; `Bench.requestOwn` gives it a new token.
* `Bench.runParked`, `Bench.dropParked`: what becomes of tasks that were kept.
-/
namespace WebCall.Call

/-- What a scheduler does with a task while it is handed over. -/
inductive Handover
  /-- Keep it. -/
  | keep
  /-- Run it, on the thread that hands it over. -/
  | run
  /-- Drop it. -/
  | drop
  deriving DecidableEq, Repr

/-- What a steered scheduler does with a task. -/
inductive Handling
  /-- Run it at once. -/
  | run
  /-- Drop it. -/
  | drop
  /-- Set the call's token, then run it. -/
  | cancelRun
  /-- Set the call's token, then drop it. -/
  | cancelDrop
  /-- Set the call's token and keep the task. -/
  | park
  deriving DecidableEq, Repr

namespace Handling

/-- Whether the call's token is set first. -/
def cancels : Handling → Bool
  | run | drop => false
  | cancelRun | cancelDrop | park => true

/-- What becomes of the task. -/
def way : Handling → Handover
  | run | cancelRun => .run
  | drop | cancelDrop => .drop
  | park => .keep

/-- A task is run without more only if nothing else is asked for. -/
theorem eq_run {h : Handling} (run : h.way = .run) (quiet : h.cancels = false) : h = .run := by
  cases h <;> simp_all [way, cancels]

/-- A task is kept only with the token set. -/
theorem cancels_of_way_eq_keep {h : Handling} (keep : h.way = .keep) : h.cancels = true := by
  cases h <;> simp_all [way, cancels]

end Handling

/-- A task that was kept, with what the scheduler does with the tasks that follow from it. -/
structure Parked where
  /-- The caller that the task runs. -/
  caller : Caller
  /-- What happens to the tasks after it. -/
  handlings : List Handling

/-- The state around the calls. -/
structure Bench (σ : Type) where
  /-- The state of the client. -/
  client : σ
  /-- All tokens. -/
  tokens : Tokens := {}
  /-- The cells of all calls; a caller's `cell` is a place in this list. -/
  cells : List (ResultCell Outcome) := []
  /-- The tasks that were kept, oldest first. -/
  parked : List Parked := []
  /-- What happened, oldest first. -/
  events : List Event := []

namespace Bench

variable {σ : Type}

/-- Adds events. -/
def note (b : Bench σ) (events : List Event) : Bench σ := { b with events := b.events ++ events }

/-- Sets a token. -/
def cancel (b : Bench σ) (token : TokenId) : Bench σ := { b with tokens := b.tokens.cancel token }

/-- Sets a token if the condition holds. -/
def cancelIf (b : Bench σ) (token : TokenId) (condition : Bool) : Bench σ :=
  { b with tokens := b.tokens.cancelIf token condition }

/-- The cell of a call. -/
def cellOf (b : Bench σ) (cell : Nat) : ResultCell Outcome := b.cells.getD cell {}

/-- Brings a result to a call's cell. -/
def resolve (b : Bench σ) (cell : Nat) (outcome : Outcome) : Bench σ :=
  let r := (b.cellOf cell).resolve outcome
  { b with cells := b.cells.set cell r.2 }.note [.resolved r.1]

/-- Drops a caller. Whoever waits for its result must not wait for ever, so a cell without a result
gets one. -/
def abandon (b : Bench σ) (c : Caller) : Bench σ :=
  if (b.cellOf c.cell).resolved then b else b.resolve c.cell (.error (.plain abandoned))

/-- Sends the request of an attempt and takes the client's reply. -/
def exchange (client : Client σ) (c : Caller) (b : Bench σ) :
    Except Http.TransportError Http.Response × Bench σ :=
  let cancelled := b.tokens.isCancelled c.token
  let reply := client b.client (c.sent cancelled)
  let tokens := b.tokens.cancelIf c.token reply.1.setsToken
  (reply.1.outcome,
    { b with client := reply.2, tokens }.note
      (c.sendEvents cancelled ++ reply.1.records.map Event.noted ++
        c.answerEvents reply.1.outcome))

/-- Runs an attempt and those that follow from it. -/
def attempt (client : Client σ) (c : Caller) (handlings : List Handling) (b : Bench σ) :
    Bench σ :=
  if b.tokens.isCancelled c.token then
    b.resolve c.cell (.error (.ofTransport .interrupted))
  else
    let r := b.exchange client c
    match _h : c.ending r.1 with
    | .resolve outcome => r.2.resolve c.cell outcome
    | .again delay =>
      -- A task beyond the list is run.
      let handling := handlings.headD .run
      let b := (r.2.note [c.handoverEvent delay]).cancelIf c.token handling.cancels
      match handling.way with
      | .run => b.attempt client c.next handlings.tail
      | .drop => b.abandon c.next
      | .keep => { b with parked := b.parked ++ [⟨c.next, handlings.tail⟩] }
termination_by c.order.policy.maxAttempts.toNat - c.attempts
decreasing_by
  all_goals
    have := Caller.attempts_lt_of_ending _h
    simp only [Caller.order_next, Caller.attempts_next]
    omega

/-- The message of a call whose waiter gave up. -/
def interruptedWait : String := "Thread interrupted"

/-- The message of a call without a credential. -/
def blankAuthorization : String := "authorization must not be empty"

/-- Waits for a call's result. `none` stands for a wait without an end. -/
def await (b : Bench σ) (cell : Nat) (token : TokenId) : Option Outcome × Bench σ :=
  let r := (b.cellOf cell).round (b.tokens.isCancelled token)
  let after := { b with cells := b.cells.set cell r.2 }
  match r.1 with
  | .value outcome => (some outcome, after)
  | .cancelled => (some (.error (.plain interruptedWait)), after)
  | .blocked => (none, after)

/-- A call: a blank credential is refused before anything is built; otherwise the first attempt runs
and the result is awaited. -/
def request (client : Client σ) (order : Order) (token : TokenId) (handlings : List Handling)
    (b : Bench σ) : Option Outcome × Bench σ :=
  if Text.isAllBlank order.authorization then
    (some (.error (.plain blankAuthorization)), b)
  else
    let cell := b.cells.length
    let b := { b with cells := b.cells ++ [({} : ResultCell Outcome)] }
    (b.attempt client { order, token, cell } handlings).await cell token

/-- A call with a new token, which nobody else knows. -/
def requestOwn (client : Client σ) (order : Order) (handlings : List Handling) (b : Bench σ) :
    Option Outcome × Bench σ :=
  let made := b.tokens.create
  { b with tokens := made.2 }.request client order made.1 handlings

/-- Runs all parked tasks, oldest first. -/
def runParked (client : Client σ) (b : Bench σ) : Bench σ :=
  b.parked.foldl (fun b p => b.attempt client p.caller p.handlings) { b with parked := [] }

/-- Drops all parked tasks, oldest first. -/
def dropParked (b : Bench σ) : Bench σ :=
  b.parked.foldl (fun b p => b.abandon p.caller) { b with parked := [] }

/-- The requests sent so far. -/
def sent (b : Bench σ) : List Sent := b.events.filterMap Event.sent?

/-- How often builders were invoked so far. -/
def builds (b : Bench σ) : Nat := b.events.countP Event.isBuilt

/-- The delays of all tasks so far. -/
def delays (b : Bench σ) : List Duration := b.events.filterMap Event.delay?

variable (b : Bench σ)

@[simp] theorem sent_note (es : List Event) :
    (b.note es).sent = b.sent ++ es.filterMap Event.sent? := by simp [sent, note]
@[simp] theorem builds_note (es : List Event) :
    (b.note es).builds = b.builds + es.countP Event.isBuilt := by simp [builds, note]
@[simp] theorem delays_note (es : List Event) :
    (b.note es).delays = b.delays ++ es.filterMap Event.delay? := by simp [delays, note]
@[simp] theorem client_note (es : List Event) : (b.note es).client = b.client := rfl
@[simp] theorem tokens_note (es : List Event) : (b.note es).tokens = b.tokens := rfl
@[simp] theorem cells_note (es : List Event) : (b.note es).cells = b.cells := rfl
@[simp] theorem parked_note (es : List Event) : (b.note es).parked = b.parked := rfl

@[simp] theorem sent_cancelIf (t : TokenId) (p : Bool) : (b.cancelIf t p).sent = b.sent := rfl
@[simp] theorem builds_cancelIf (t : TokenId) (p : Bool) : (b.cancelIf t p).builds = b.builds := rfl
@[simp] theorem delays_cancelIf (t : TokenId) (p : Bool) : (b.cancelIf t p).delays = b.delays := rfl
@[simp] theorem client_cancelIf (t : TokenId) (p : Bool) : (b.cancelIf t p).client = b.client := rfl
@[simp] theorem cells_cancelIf (t : TokenId) (p : Bool) : (b.cancelIf t p).cells = b.cells := rfl
@[simp] theorem parked_cancelIf (t : TokenId) (p : Bool) : (b.cancelIf t p).parked = b.parked := rfl
@[simp] theorem tokens_cancelIf (t : TokenId) (p : Bool) :
    (b.cancelIf t p).tokens = b.tokens.cancelIf t p := rfl

@[simp] theorem sent_resolve (i : Nat) (o : Outcome) : (b.resolve i o).sent = b.sent := by
  simp [resolve, sent, note, Event.sent?]
@[simp] theorem builds_resolve (i : Nat) (o : Outcome) : (b.resolve i o).builds = b.builds := by
  simp [resolve, builds, note, Event.isBuilt]
@[simp] theorem delays_resolve (i : Nat) (o : Outcome) : (b.resolve i o).delays = b.delays := by
  simp [resolve, delays, note, Event.delay?]
@[simp] theorem client_resolve (i : Nat) (o : Outcome) : (b.resolve i o).client = b.client := rfl
@[simp] theorem tokens_resolve (i : Nat) (o : Outcome) : (b.resolve i o).tokens = b.tokens := rfl
@[simp] theorem parked_resolve (i : Nat) (o : Outcome) : (b.resolve i o).parked = b.parked := rfl
theorem cells_resolve (i : Nat) (o : Outcome) :
    (b.resolve i o).cells = b.cells.set i ((b.cellOf i).resolve o).2 := rfl

theorem cellOf_resolve_self {i : Nat} (h : i < b.cells.length) (o : Outcome) :
    (b.resolve i o).cellOf i = ((b.cellOf i).resolve o).2 := by
  simp [cellOf, cells_resolve, h]

/-- Whoever waits for a result that is there gets it. -/
theorem fst_await_of_slot_eq_some {i : Nat} {o : Outcome} (h : (b.cellOf i).slot = some o)
    (t : TokenId) : (b.await i t).1 = some o := by
  simp [await, ResultCell.round_of_slot_eq_some h]

/-- Whoever waits with a set token for a result that is not there gives up. -/
theorem fst_await_of_slot_eq_none {i : Nat} {t : TokenId} (h : (b.cellOf i).slot = none)
    (set : b.tokens.isCancelled t = true) :
    (b.await i t).1 = some (.error (.plain interruptedWait)) := by
  simp [await, ResultCell.round_of_slot_eq_none h, set]

/-- Waiting changes nothing but the cell. -/
theorem snd_await (i : Nat) (t : TokenId) :
    (b.await i t).2 = { b with
      cells := b.cells.set i ((b.cellOf i).round (b.tokens.isCancelled t)).2 } := by
  unfold await
  dsimp only
  split <;> rfl

/-- Dropping a caller leaves the bench as it is, or brings its call a result. -/
theorem abandon_eq_or (c : Caller) :
    b.abandon c = b ∨ b.abandon c = b.resolve c.cell (.error (.plain abandoned)) := by
  unfold abandon
  split
  · exact .inl rfl
  · exact .inr rfl

variable (client : Client σ) (c : Caller)

@[simp] theorem sent_exchange :
    (b.exchange client c).2.sent = b.sent ++ [c.sent (b.tokens.isCancelled c.token)] := by
  simp [exchange, sent, note]
@[simp] theorem builds_exchange : (b.exchange client c).2.builds = b.builds + 1 := by
  simp [exchange, builds, note]
@[simp] theorem delays_exchange : (b.exchange client c).2.delays = b.delays := by
  simp [exchange, delays, note]
@[simp] theorem cells_exchange : (b.exchange client c).2.cells = b.cells := rfl
@[simp] theorem parked_exchange : (b.exchange client c).2.parked = b.parked := rfl

/-- An attempt whose token is set does nothing but end its call. -/
theorem attempt_of_isCancelled (handlings : List Handling)
    (h : b.tokens.isCancelled c.token = true) :
    b.attempt client c handlings = b.resolve c.cell (.error (.ofTransport .interrupted)) := by
  rw [attempt, if_pos h]

/-- An attempt whose answer ends the call. -/
theorem attempt_of_ending_resolve {handlings : List Handling} {outcome : Outcome}
    (ht : b.tokens.isCancelled c.token = false)
    (he : c.ending (b.exchange client c).1 = .resolve outcome) :
    b.attempt client c handlings = (b.exchange client c).2.resolve c.cell outcome := by
  rw [attempt, if_neg (by simp [ht])]
  dsimp only
  split
  · next h => rw [he] at h; cases h; rfl
  · next h => rw [he] at h; cases h

/-- An attempt that hands the next one to the scheduler. -/
theorem attempt_of_ending_again {handlings : List Handling} {delay : Duration}
    (ht : b.tokens.isCancelled c.token = false)
    (he : c.ending (b.exchange client c).1 = .again delay) :
    b.attempt client c handlings =
      let handling := handlings.headD .run
      let b := ((b.exchange client c).2.note [c.handoverEvent delay]).cancelIf c.token
        handling.cancels
      match handling.way with
      | .run => b.attempt client c.next handlings.tail
      | .drop => b.abandon c.next
      | .keep => { b with parked := b.parked ++ [⟨c.next, handlings.tail⟩] } := by
  rw [attempt, if_neg (by simp [ht])]
  dsimp only
  split
  · next h => rw [he] at h; cases h
  · next h => rw [he] at h; cases h; rfl

end Bench

/-- A client that gives the replies of an endless list, one after the other, whatever the requests
are. Its state is the number of replies given. -/
def Client.ofReplies (replies : Nat → Reply) : Client Nat := fun i _ => (replies i, i + 1)

/-- A client that replies from a script. The last reply is repeated for ever. -/
structure Script where
  /-- The replies that are left before the last. -/
  ahead : List Reply
  /-- The last reply. -/
  last : Reply

/-- Takes the next reply of a script, whatever the request is. -/
def Script.client : Client Script := fun s _ =>
  match s.ahead with
  | [] => (s.last, s)
  | r :: rest => (r, { s with ahead := rest })

end WebCall.Call
