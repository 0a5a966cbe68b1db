import WebCall.Call.Crowd

/-!
# Handles on a shared timer

The timer of a crowd lives as long as someone has a handle on it. Those who make calls have handles,
and so has every caller, wherever it is: with an attempt, or with a task that the timer itself
keeps. The handles are counted. When the last one is gone the timer is shut down: it takes no more
tasks, its workers take none, and what it keeps is dropped.

## Main definitions

* `Shared`: a crowd with the count of the handles on its timer.
* `Crowd.made`, `Crowd.dropped`: how many callers a move makes, and how many it drops.
* `Shared.move`: what a move does to the crowd and to the count.
-/
namespace WebCall.Call

variable {σ : Type}

/-- Whether a call has started and has not returned yet. -/
def Seat.inFlight (s : Seat σ) : Bool := s.started && s.result.isNone

namespace Crowd

/-- How many callers a move makes. A call that is not refused makes one when it starts. -/
def made (w : Crowd σ) : Move → Nat
  | .start call => (w.seats[call]?).elim 0 fun s =>
    if Text.isAllBlank s.order.authorization then 0 else 1
  | _ => 0

/-- How many callers a move drops. An attempt that has brought its result drops its own, and a task
that is not kept is dropped with its caller. -/
def dropped (w : Crowd σ) : Move → Nat
  | .advance attempt way => (w.attempts[attempt]?).elim 0 fun a =>
    match a.stage, way with
    | .closing, _ => 1
    | .ended (.again _), .drop => 1
    | .ended (.again _), .keep => if w.timer.closed then 1 else 0
    | _, _ => 0
  | .drop _ => 1
  | _ => 0

/-- The timer is shut down, and what it keeps is dropped. -/
def shutDown (w : Crowd σ) : Crowd σ :=
  let r := w.timer.close
  r.1.foldl (fun w e => w.abandon e.task.cell) { w with timer := r.2 }

end Crowd

/-- A crowd with the handles on its timer. -/
structure Shared (σ : Type) where
  /-- The calls and their timer. -/
  crowd : Crowd σ
  /-- How many handles those have who make calls. -/
  outside : Nat := 1
  /-- How many handles there are. -/
  handles : Nat := 1

/-- What may happen next to a timer with its handles. -/
inductive Shared.Move
  /-- Someone who has a handle makes another. -/
  | share
  /-- Someone who makes calls lets go of a handle. -/
  | release
  /-- The calls or the timer make a move. -/
  | crowd (move : Call.Move)
  deriving DecidableEq, Repr

namespace Shared

/-- Whether a move of the calls or the timer can come up. The timer itself runs a task on a worker
when it is due and drops none, and a call is started through a handle. -/
def allows (s : Shared σ) : Call.Move → Bool
  | .start _ => s.outside != 0
  | .cancel _ => true
  | m => m.timely

/-- Shuts the timer down when the last handle is gone. -/
def settle (s : Shared σ) : Shared σ :=
  if s.handles = 0 then { s with crowd := s.crowd.shutDown } else s

/-- What a move does; `none` where it cannot be made. A call that has not returned uses a handle of
those who make calls, so the last of these is not let go of. -/
def move (client : Client σ) (s : Shared σ) : Move → Option (Shared σ)
  | .share =>
    if s.outside = 0 then none
    else some { s with outside := s.outside + 1, handles := s.handles + 1 }
  | .release =>
    if s.outside = 0 ∨ (s.outside = 1 ∧ s.crowd.seats.any Seat.inFlight) then none
    else some (settle { s with outside := s.outside - 1, handles := s.handles - 1 })
  | .crowd m =>
    if s.allows m then
      (s.crowd.move client m).map fun w =>
        settle { s with
          crowd := w
          handles := s.handles + s.crowd.made m - s.crowd.dropped m }
    else none

/-- Makes move after move; `none` where one of them cannot be made. -/
def run (client : Client σ) (s : Shared σ) (moves : List Move) : Option (Shared σ) :=
  moves.foldlM (move client) s

end Shared

end WebCall.Call
