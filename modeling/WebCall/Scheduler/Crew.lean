import WebCall.Log.Record
import WebCall.Scheduler.Timer

/-!
# A crew of workers

Workers that run the tasks of a timer. A task may hand further tasks to the timer, it may let go of
the last handle on the timer, and in the end it returns or fails. A failure ends the task and
nothing else; its worker goes on to the next task. When the last handle is gone the timer closes:
what it keeps is discarded, and so is what it is handed from then on.

The state changes by moves: a task is handed over from outside, a worker takes a task that is due, a
task goes on by a step, the timer is closed, time passes. Moves may come in any order; `Crew.play`
chooses one order, on a clock that jumps to the next moment at which something happens.

Tasks are numbered in the order in which they are handed over, and the crew keeps a record of those
that were started and of those that were discarded.

## Main definitions

* `Job`: a task with a name, and what it does.
* `Crew.move`: what a move does, and when it can be made.
* `Crew.run`: move after move.
* `Crew.play`: a run in which no time is lost.
-/
namespace WebCall

/-- What a task has still to do. -/
inductive Work
  /-- It returns. -/
  | done
  /-- It fails. -/
  | fail
  /-- It hands a task to the timer, which has a name and something to do, and goes on. -/
  | hand (delay : Duration) (id : String) (task rest : Work)
  /-- It lets go of the last handle on the timer, and goes on. -/
  | release (rest : Work)
  deriving DecidableEq, Inhabited, Repr

namespace Work

/-- The names of the tasks that will be handed over, with those that follow from them. -/
def ids : Work → List String
  | done => []
  | fail => []
  | hand _ id task rest => id :: (task.ids ++ rest.ids)
  | release rest => rest.ids

/-- How many moves it takes, with those of the tasks that are handed over; each of these comes up by
a pause and a worker. -/
def moves : Work → Nat
  | done => 1
  | fail => 1
  | hand _ _ task rest => task.moves + rest.moves + 3
  | release rest => rest.moves + 1

end Work

/-- A task. -/
structure Job where
  /-- Its name. -/
  id : String
  /-- What it does. -/
  work : Work
  deriving DecidableEq, Inhabited, Repr

/-- The names of a task and of all that follow from it. -/
def Job.ids (j : Job) : List String := j.id :: j.work.ids

/-- The task of an entry with its number. -/
def Entry.ticket {α : Type} (e : Entry α) : α × Nat := (e.task, e.seq)

/-- A timer with its workers. -/
structure Crew where
  /-- The queue. -/
  timer : Timer Job := {}
  /-- How many workers there are. -/
  workers : Nat := 1
  /-- The time. -/
  clock : Instant := 0
  /-- What the tasks that are running have still to do. -/
  running : List Work := []
  /-- All tasks that were handed over, oldest first; a task's number is its place in this list. -/
  handed : List Job := []
  /-- The tasks that were started, oldest first, with their numbers. -/
  started : List (Job × Nat) := []
  /-- The tasks that were discarded, oldest first, with their numbers. -/
  discarded : List (Job × Nat) := []
  /-- What the log says, oldest first. -/
  records : List Log.Record := []

/-- What may happen next to a crew. -/
inductive Crew.Move
  /-- A task is handed to the timer from outside. -/
  | submit (delay : Duration) (job : Job)
  /-- A worker takes the next task of the timer. -/
  | take
  /-- The task that is running at a place goes on by a step. -/
  | go (place : Nat)
  /-- The last handle on the timer is let go of outside. -/
  | close
  /-- Time passes up to a moment. -/
  | pass (moment : Instant)
  deriving DecidableEq, Repr

namespace Crew

/-- What the log says about a task that fails. -/
def failure : Log.Record := ⟨.error, .scheduler, "scheduled task panicked"⟩

/-- What the log says about a task that a closed timer is handed. -/
def refusal : Log.Record := ⟨.warn, .scheduler, "scheduler shut down; dropping task"⟩

/-- Hands a task to the timer; a closed timer discards it. -/
def submit (c : Crew) (delay : Duration) (job : Job) : Crew :=
  match c.timer.schedule Timer.clockLimit c.clock delay job with
  | some timer => { c with timer, handed := c.handed ++ [job] }
  | none => { c with
      handed := c.handed ++ [job]
      discarded := c.discarded ++ [(job, c.handed.length)]
      records := c.records ++ [refusal] }

/-- Closes the timer and discards what it keeps. -/
def close (c : Crew) : Crew :=
  let r := c.timer.close
  { c with timer := r.2, discarded := c.discarded ++ r.1.map Entry.ticket }

/-- A worker takes the next task, if it is due and a worker is free. -/
def take? (c : Crew) : Option Crew :=
  if c.workers ≤ c.running.length then none
  else (c.timer.start? c.clock).map fun r => { c with
    timer := r.2
    running := c.running ++ [r.1.task.work]
    started := c.started ++ [r.1.ticket] }

/-- The task that is running at a place goes on by a step. At its end, its worker is free again. -/
def go? (c : Crew) (place : Nat) : Option Crew :=
  (c.running[place]?).map fun work =>
    match work with
    | .done => { c with running := c.running.eraseIdx place }
    | .fail => { c with
        running := c.running.eraseIdx place
        records := c.records ++ [failure] }
    | .hand delay id task rest =>
      { c with running := c.running.set place rest }.submit delay ⟨id, task⟩
    | .release rest => { c with running := c.running.set place rest }.close

/-- What a move does; `none` where it cannot be made. -/
def move (c : Crew) : Move → Option Crew
  | .submit delay job => some (c.submit delay job)
  | .take => c.take?
  | .go place => c.go? place
  | .close => some c.close
  | .pass moment => if c.clock ≤ moment then some { c with clock := moment } else none

/-- Makes move after move; `none` where one of them cannot be made. -/
def run (c : Crew) (moves : List Move) : Option Crew := moves.foldlM move c

/-- A task that is waited for has a delay below this. -/
def patience : Duration := .ofSecs 60

/-- The move that comes next in a run that loses no time. It waits for no task that is due in the
far future. -/
def nextMove? (c : Crew) : Option Move :=
  match c.running, c.timer.nextDue? with
  | _ :: _, _ => some (.go 0)
  | [], none => none
  | [], some due =>
    if due ≤ c.clock then some .take
    else if due < c.clock + patience.nanos then some (.pass due)
    else none

/-- Makes moves until there is nothing to wait for. `fuel` bounds their number. -/
def play : (fuel : Nat) → Crew → Crew
  | 0, c => c
  | fuel + 1, c =>
    match c.nextMove?.bind c.move with
    | none => c
    | some c => play fuel c

/-- Enough moves for all tasks that are running or kept: each of the latter comes up by a pause and
a worker. -/
def playFuel (c : Crew) : Nat :=
  c.timer.queue.foldl (fun n e => n + (e.task.work.moves + 2))
    (c.running.foldl (fun n work => n + work.moves) 0)

end Crew

end WebCall
