import WebCall.Call.Steered

/-!
# Histories of a bench

What a user does with a bench, act by act: make tokens and set them, make calls, and have the tasks
run or dropped that the scheduler kept. Calls may share tokens. Each act has an answer, which tells
all that the user can see of it.

## Main definitions

* `Bench.act?`: an act with its answer.
* `Bench.history?`: one act after the other.
-/
namespace WebCall.Call

/-- What may be done with a bench. -/
inductive Act
  /-- Make a token. -/
  | create
  /-- Make a call. -/
  | call (order : Order) (token : TokenId) (handlings : List Handling)
  /-- Set a token. -/
  | cancel (token : TokenId)
  /-- Run the tasks that were kept. -/
  | runParked
  /-- Drop the tasks that were kept. -/
  | dropParked

/-- What can be seen of an act. -/
structure Answer where
  /-- The result, if the act is a call that returns. -/
  result : Option Outcome
  /-- How often a builder was invoked. -/
  builds : Nat
  /-- The requests that were sent. -/
  sent : List Sent
  /-- The delays of the tasks that were handed to the scheduler. -/
  delays : List Duration

/-- The answer of an act in which nothing is built, sent or scheduled. -/
def Answer.silent (result : Option Outcome) : Answer := ⟨result, 0, [], []⟩

namespace Bench

variable {σ : Type}

/-- The answer of an act that turns a bench into another. -/
def answer (b b' : Bench σ) (result : Option Outcome) : Answer where
  result := result
  builds := b'.builds - b.builds
  sent := b'.sent.drop b.sent.length
  delays := b'.delays.drop b.delays.length

/-- What an act makes of a bench, without its answer. Only tokens that were made can be named. -/
def after? (client : Client σ) (b : Bench σ) : Act → Option (Option Outcome × Bench σ)
  | .create => some (none, { b with tokens := b.tokens.create.2 })
  | .call order token handlings =>
    if b.tokens.Made token then some (b.request client order token handlings) else none
  | .cancel token => if b.tokens.Made token then some (none, b.cancel token) else none
  | .runParked => some (none, b.runParked client)
  | .dropParked => some (none, b.dropParked)

/-- An act with its answer. -/
def act? (client : Client σ) (b : Bench σ) (a : Act) : Option (Answer × Bench σ) :=
  (b.after? client a).map fun r => (b.answer r.2 r.1, r.2)

/-- One act after the other, with the answers in that order. -/
def history? (client : Client σ) : List Act → Bench σ → Option (List Answer × Bench σ)
  | [], b => some ([], b)
  | a :: rest, b =>
    (b.act? client a).bind fun r =>
      (r.2.history? client rest).map fun h => (r.1 :: h.1, h.2)

end Bench

end WebCall.Call
