import WebCall.ResultCell

/-!
# Contests for a cell

A cell to which any number of threads bring results, while one thread waits for what is in it, as
often as it likes, and anyone may set its token. Each thread goes on step by step, and steps of
different threads may come in any order. Who brings a result first swaps the flag, then stores the
result if the flag was unset before, and then returns. Who waits looks in each round at the slot and
at the token, and holds the lock meanwhile, so that a round is one step.

## Main definitions

* `Bid.go?`: the next step of a thread that brings a result.
* `Contest.move`: what a step does, and when it can be made.
* `Contest.run`: step after step.
-/
namespace WebCall

/-- How far a thread that brings a result has come. -/
inductive BidStage
  /-- It has not swapped the flag yet. -/
  | called
  /-- It has swapped the flag, which was this before. -/
  | swapped (before : Bool)
  /-- It has stored its result. -/
  | stored
  /-- It has returned, with this answer. -/
  | returned (answer : Bool)
  deriving DecidableEq, Repr

/-- A thread that brings a result. -/
structure Bid (α : Type) where
  /-- The result. -/
  value : α
  /-- How far the thread has come. -/
  stage : BidStage := .called
  deriving DecidableEq, Repr

/-- The next step of a thread that brings a result, and the cell after it. -/
def Bid.go? {α : Type} (b : Bid α) (cell : ResultCell α) : Option (Bid α × ResultCell α) :=
  match b.stage with
  | .called => some ({ b with stage := .swapped cell.swap.1 }, cell.swap.2)
  | .swapped true => some ({ b with stage := .returned false }, cell)
  | .swapped false => some ({ b with stage := .stored }, cell.store b.value)
  | .stored => some ({ b with stage := .returned true }, cell)
  | .returned _ => none

/-- A cell, its token, and the threads that use it. -/
structure Contest (α : Type) where
  /-- The cell. -/
  cell : ResultCell α := {}
  /-- Whether the token is set. -/
  cancelled : Bool := false
  /-- The threads that bring results, in the order of their calls. -/
  bids : List (Bid α) := []
  /-- The places of the threads that swapped the flag, in the order of their swaps. -/
  swaps : List Nat := []
  /-- Whether the waiting thread is in a wait. -/
  waiting : Bool := false
  /-- What the waits that are over returned, in their order. -/
  results : List (Option α) := []
  deriving DecidableEq, Repr

namespace Contest

variable {α : Type}

/-- What may happen next. -/
inductive Move (α : Type)
  /-- Another thread calls, to bring a result. -/
  | call (value : α)
  /-- The thread at a place makes its next step. -/
  | go (place : Nat)
  /-- The token is set. -/
  | cancel
  /-- The waiting thread begins a wait. -/
  | enter
  /-- The waiting thread makes a round of its wait. -/
  | look

/-- The thread at a place makes its next step. -/
def go? (w : Contest α) (place : Nat) : Option (Contest α) :=
  (w.bids[place]?).bind fun b =>
    (b.go? w.cell).map fun r =>
      { w with
        cell := r.2
        bids := w.bids.set place r.1
        swaps := if b.stage = .called then w.swaps ++ [place] else w.swaps }

/-- A round of the wait. The wait is over if the round gives it something or the token is set. -/
def look? (w : Contest α) : Option (Contest α) :=
  if w.waiting then
    let r := w.cell.round w.cancelled
    let w := { w with cell := r.2 }
    match r.1 with
    | .value v => some { w with waiting := false, results := w.results ++ [some v] }
    | .cancelled => some { w with waiting := false, results := w.results ++ [none] }
    | .blocked => some w
  else none

/-- What a step does; `none` where it cannot be made. -/
def move (w : Contest α) : Move α → Option (Contest α)
  | .call value => some { w with bids := w.bids ++ [{ value }] }
  | .go place => w.go? place
  | .cancel => some { w with cancelled := true }
  | .enter => if w.waiting then none else some { w with waiting := true }
  | .look => w.look?

/-- Makes step after step; `none` where one of them cannot be made. -/
def run (w : Contest α) (moves : List (Move α)) : Option (Contest α) := moves.foldlM move w

/-- The thread that swapped the flag first. -/
def first? (w : Contest α) : Option Nat := w.swaps.head?

end Contest

end WebCall
