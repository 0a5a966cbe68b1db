import Mathlib.Data.Nat.Find
import WebCall.Call.Steered
import WebCall.Proofs.Call.Reply

/-!
# The course of a call

What a call does when it is given one reply after the other. The attempts of a call are numbered
from zero. As long as a reply asks for a wait, the budget lasts, no token is set and the scheduler
runs what it is handed, the call goes on; the first attempt of which one of these fails ends it. Its
requests, its waits and its result can be read off the replies without running the call, and the
result is read off the reply of the last attempt alone.

## Main definitions

* `Order.sentAt`, `Order.replyAt`, `Order.waitAt?`: request, reply and wait of each attempt.
* `Order.GoesOn`: whether a call goes on after an attempt.
* `Order.resultAt`: the result of a call whose last attempt is known.
* `Bench.request_of_not_goesOn`: a call under a steered scheduler, told by these.
-/
namespace WebCall.Call

variable {σ : Type} (client : Client σ) (s : σ)

namespace Order

variable (o : Order)

/-- What an attempt hands to the client while the token of the call is not set. -/
def sentAt (j : Nat) : Sent :=
  ⟨(o.build j).setField authorizationField o.authorization, o.policy.timeout, false⟩

/-- The state of the client before an attempt; `s` is its state before the call. -/
def clientAt : Nat → σ
  | 0 => s
  | j + 1 => (client (clientAt j) (o.sentAt j)).2

/-- The reply to an attempt. -/
def replyAt (j : Nat) : Reply := (client (o.clientAt client s j) (o.sentAt j)).1

/-- The wait after an attempt. There is none after a reply that ends the call, and none after the
last attempt of the budget. -/
def waitAt? (j : Nat) : Option Duration :=
  if j + 1 < o.policy.maxAttempts.toNat then (o.replyAt client s j).wait? o.policy else none

/-- The caller that begins an attempt. -/
def caller (token : TokenId) (cell j : Nat) : Caller :=
  { order := o, token, cell, attempts := j, built := j }

@[simp] theorem next_caller (token : TokenId) (cell j : Nat) :
    (o.caller token cell j).next = o.caller token cell (j + 1) := rfl

@[simp] theorem sent_caller (token : TokenId) (cell j : Nat) :
    (o.caller token cell j).sent false = o.sentAt j := rfl

@[simp] theorem token_caller (token : TokenId) (cell j : Nat) :
    (o.caller token cell j).token = token := rfl

@[simp] theorem cell_caller (token : TokenId) (cell j : Nat) :
    (o.caller token cell j).cell = cell := rfl

@[simp] theorem clientAt_zero : o.clientAt client s 0 = s := rfl

/-- A client that gives the replies of a list gives them one by one. -/
@[simp] theorem clientAt_ofReplies (replies : Nat → Reply) (i j : Nat) :
    o.clientAt (Client.ofReplies replies) i j = i + j := by
  induction j with
  | zero => rfl
  | succ j ih => simp only [clientAt, Client.ofReplies, ih]; omega

@[simp] theorem replyAt_ofReplies (replies : Nat → Reply) (i j : Nat) :
    o.replyAt (Client.ofReplies replies) i j = replies (i + j) := by
  simp [replyAt, Client.ofReplies]

/-- An attempt that is followed by a wait is tried again, and no other is. -/
theorem ending_caller_eq_again_iff (token : TokenId) (cell : Nat) {j : Nat} {delay : Duration} :
    (o.caller token cell j).ending (o.replyAt client s j).outcome = .again delay ↔
      o.waitAt? client s j = some delay := by
  rw [Caller.ending_eq_again_iff]
  by_cases h : j + 1 < o.policy.maxAttempts.toNat <;> simp [waitAt?, caller, h]

/-- The result of an attempt that is not followed by a wait. -/
def lastOutcome (j : Nat) : Outcome :=
  match (o.replyAt client s j).terminal? with
  | some outcome => outcome
  | none => .error (.plain (exhausted (j + 1)))

/-- An attempt that is not followed by a wait ends the call. -/
theorem ending_caller_of_waitAt?_eq_none (token : TokenId) (cell : Nat) {j : Nat}
    (h : o.waitAt? client s j = none) :
    (o.caller token cell j).ending (o.replyAt client s j).outcome =
      .resolve (o.lastOutcome client s j) := by
  cases ht : (o.replyAt client s j).terminal? with
  | some outcome => simp [lastOutcome, ht, Caller.ending_of_terminal ht]
  | none =>
    cases hw : (o.replyAt client s j).wait? o.policy with
    | none =>
      obtain ⟨outcome, ho⟩ := Reply.wait?_eq_none_iff.1 hw
      rw [ht] at ho
      cases ho
    | some delay =>
      have hlast : o.policy.maxAttempts.toNat ≤ j + 1 := by
        by_contra hlt
        simp [waitAt?, hw, Nat.lt_of_not_le hlt] at h
      have waits : (o.replyAt client s j).wait? (o.caller token cell j).order.policy = some delay :=
        hw
      rw [Caller.ending_of_wait waits]
      simp [caller, hlast, lastOutcome, ht]

section Steered

variable (handlings : List Handling)

/-- Whether a call goes on by itself after an attempt: the next attempt is handed over and run, and
the token is not set meanwhile. -/
def GoesOn (j : Nat) : Prop :=
  (∃ delay, o.waitAt? client s j = some delay) ∧ (o.replyAt client s j).setsToken = false ∧
    handlings.getD j .run = .run

/-- The result of a call whose last attempt is known. -/
def resultAt (j : Nat) : Outcome :=
  match o.waitAt? client s j with
  | none => o.lastOutcome client s j
  | some _ =>
    match (handlings.getD j .run).way with
    | .run => .error (.ofTransport .interrupted)
    | .drop => .error (.plain abandoned)
    | .keep => .error (.plain Bench.interruptedWait)

/-- Whether the scheduler keeps a task at the last attempt of a call. -/
def keptAt (j : Nat) : Bool :=
  (o.waitAt? client s j).isSome && (handlings.getD j .run).way == .keep

/-- Whether the token of a call is set at its last attempt. -/
def setsTokenAt (j : Nat) : Bool :=
  (o.replyAt client s j).setsToken ||
    ((o.waitAt? client s j).isSome && (handlings.getD j .run).cancels)

/-- Every call has a last attempt, within its budget. -/
theorem exists_last : ∃ j, j < max 1 o.policy.maxAttempts.toNat ∧
    (∀ i < j, o.GoesOn client s handlings i) ∧ ¬ o.GoesOn client s handlings j := by
  classical
  have stops : ¬ o.GoesOn client s handlings (o.policy.maxAttempts.toNat - 1) := by
    rintro ⟨⟨delay, hd⟩, -⟩
    have : ¬ o.policy.maxAttempts.toNat - 1 + 1 < o.policy.maxAttempts.toNat := by omega
    simp [waitAt?, this] at hd
  have ex : ∃ j, ¬ o.GoesOn client s handlings j := ⟨_, stops⟩
  refine ⟨Nat.find ex, ?_, ?_, Nat.find_spec ex⟩
  · have := Nat.find_min' ex stops
    omega
  · intro i hi
    exact not_not.1 (Nat.find_min ex hi)

end Steered

end Order

namespace Bench

variable (o : Order) (token : TokenId) (b : Bench σ)

/-- What the attempts of a call make of a bench: `n` requests were sent, the waits of the first `m`
attempts were asked for, and no result was brought yet. -/
structure Ahead (n m : Nat) (tokens : Tokens) (b' : Bench σ) : Prop where
  state : b'.client = o.clientAt client b.client n
  tokens : b'.tokens = tokens
  cells : b'.cells = b.cells
  parked : b'.parked = b.parked
  sent : b'.sent = b.sent ++ (List.range n).map o.sentAt
  builds : b'.builds = b.builds + n
  delays : b'.delays = b.delays ++ (List.range m).filterMap (o.waitAt? client b.client)

/-- What a call whose last attempt is `j` comes to. -/
structure Finished (handlings : List Handling) (j : Nat)
    (r : Option Outcome × Bench σ) : Prop where
  result : r.1 = some (o.resultAt client b.client handlings j)
  state : r.2.client = o.clientAt client b.client (j + 1)
  tokens : r.2.tokens = b.tokens.cancelIf token (o.setsTokenAt client b.client handlings j)
  cells : r.2.cells.length = b.cells.length + 1
  parked : r.2.parked = b.parked ++ if o.keptAt client b.client handlings j then
    [⟨o.caller token b.cells.length (j + 1), handlings.drop (j + 1)⟩] else []
  sent : r.2.sent = b.sent ++ (List.range (j + 1)).map o.sentAt
  builds : r.2.builds = b.builds + (j + 1)
  delays : r.2.delays = b.delays ++ (List.range (j + 1)).filterMap (o.waitAt? client b.client)

namespace Ahead

variable {client o b} {b' : Bench σ} {tokens : Tokens} {n m j : Nat}

theorem refl : Ahead client o b 0 0 b.tokens b := by
  constructor <;> simp

/-- An exchange of an attempt whose token is not set. -/
theorem exchange (cell : Nat) (h : Ahead client o b j m tokens b')
    (unset : tokens.isCancelled token = false) :
    (b'.exchange client (o.caller token cell j)).1 = (o.replyAt client b.client j).outcome ∧
    Ahead client o b (j + 1) m (tokens.cancelIf token (o.replyAt client b.client j).setsToken)
      (b'.exchange client (o.caller token cell j)).2 := by
  have hunset : b'.tokens.isCancelled (o.caller token cell j).token = false := by
    rw [h.tokens]
    exact unset
  constructor
  · simp only [Bench.exchange, hunset, Order.sent_caller, h.state]
    rfl
  constructor
  · simp only [Bench.exchange, hunset, Order.sent_caller, h.state]
    rfl
  · rw [← h.tokens]
    simp only [Bench.exchange, hunset, Order.sent_caller, h.state]
    rfl
  · rw [cells_exchange, h.cells]
  · rw [parked_exchange, h.parked]
  · rw [sent_exchange, hunset, h.sent]
    simp [List.range_succ]
  · rw [builds_exchange, h.builds, Nat.add_assoc]
  · rw [delays_exchange, h.delays]

/-- The wait of an attempt is asked for. -/
theorem handover {c : Caller} {delay : Duration} (h : Ahead client o b n m tokens b')
    (hw : o.waitAt? client b.client m = some delay) :
    Ahead client o b n (m + 1) tokens (b'.note [c.handoverEvent delay]) := by
  constructor
  · exact h.state
  · exact h.tokens
  · exact h.cells
  · exact h.parked
  · simp [h.sent, Caller.handoverEvent, Event.sent?]
  · simp [h.builds, Caller.handoverEvent, Event.isBuilt]
  · simp [h.delays, Caller.handoverEvent, Event.delay?, List.range_succ, hw]

/-- An attempt without a wait asks for none. -/
theorem skip (h : Ahead client o b n m tokens b') (hw : o.waitAt? client b.client m = none) :
    Ahead client o b n (m + 1) tokens b' :=
  { h with delays := by simp [h.delays, List.range_succ, hw] }

theorem cancelIf (h : Ahead client o b n m tokens b') (p : Bool) :
    Ahead client o b n m (tokens.cancelIf token p) (b'.cancelIf token p) :=
  { h with tokens := by simp [h.tokens] }

/-- An attempt that is not followed by a wait brings its result. -/
theorem attempt_of_waitAt?_eq_none (handlings : List Handling) (cell : Nat)
    (h : Ahead client o b j j tokens b') (unset : tokens.isCancelled token = false)
    (hw : o.waitAt? client b.client j = none) :
    ∃ b'', Ahead client o b (j + 1) (j + 1)
        (tokens.cancelIf token (o.replyAt client b.client j).setsToken) b'' ∧
      b'.attempt client (o.caller token cell j) handlings =
        b''.resolve cell (o.lastOutcome client b.client j) := by
  obtain ⟨answer, after⟩ := h.exchange token cell unset
  have ending := o.ending_caller_of_waitAt?_eq_none client b.client token cell hw
  rw [← answer] at ending
  refine ⟨_, after.skip hw, ?_⟩
  rw [attempt_of_ending_resolve _ _ _ (by rw [h.tokens]; exact unset) ending]
  rfl

/-- An attempt that is followed by a wait hands over the next attempt. -/
theorem attempt_of_waitAt?_eq_some (handlings : List Handling) {delay : Duration} (cell : Nat)
    (h : Ahead client o b j j tokens b') (unset : tokens.isCancelled token = false)
    (hw : o.waitAt? client b.client j = some delay) :
    ∃ b'', Ahead client o b (j + 1) (j + 1)
        (tokens.cancelIf token ((o.replyAt client b.client j).setsToken ||
          (handlings.headD .run).cancels)) b'' ∧
      b'.attempt client (o.caller token cell j) handlings =
        match (handlings.headD .run).way with
        | .run => b''.attempt client (o.caller token cell (j + 1)) handlings.tail
        | .drop => b''.abandon (o.caller token cell (j + 1))
        | .keep =>
          { b'' with parked := b''.parked ++ [⟨o.caller token cell (j + 1), handlings.tail⟩] } := by
  obtain ⟨answer, after⟩ := h.exchange token cell unset
  have ending := (o.ending_caller_eq_again_iff client b.client token cell).2 hw
  rw [← answer] at ending
  have handed := (after.handover (c := o.caller token cell j) hw).cancelIf token
    (handlings.headD .run).cancels
  rw [Tokens.cancelIf_cancelIf] at handed
  refine ⟨_, handed, ?_⟩
  rw [attempt_of_ending_again _ _ _ (by rw [h.tokens]; exact unset) ending]
  rfl

end Ahead

variable {o b} {handlings : List Handling} {cell j : Nat}

private theorem headD_drop : (handlings.drop j).headD .run = handlings.getD j .run := by
  rw [List.headD_eq_head?_getD, List.head?_drop, List.getD_eq_getElem?_getD]

/-- A call goes on until its last attempt. -/
theorem exists_ahead (cell : Nat) (unset : b.tokens.isCancelled token = false)
    (on : ∀ i < j, o.GoesOn client b.client handlings i) :
    ∃ b', Ahead client o b j j b.tokens b' ∧
      b.attempt client (o.caller token cell 0) handlings =
        b'.attempt client (o.caller token cell j) (handlings.drop j) := by
  induction j with
  | zero => exact ⟨b, .refl, rfl⟩
  | succ j ih =>
    obtain ⟨b', ahead, same⟩ := ih fun i hi => on i (Nat.lt_succ_of_lt hi)
    obtain ⟨⟨delay, hd⟩, quiet, run⟩ := on j j.lt_succ_self
    obtain ⟨b'', ahead', same'⟩ := ahead.attempt_of_waitAt?_eq_some token
      (handlings.drop j) cell unset hd
    rw [headD_drop, run] at ahead' same'
    rw [quiet] at ahead'
    refine ⟨b'', ahead', same.trans (same'.trans ?_)⟩
    rw [List.tail_drop]
    rfl

/-- Where the task of a last attempt is run, the token of the call was set. -/
theorem setsTokenAt_of_way_eq_run {o : Order} {delay : Duration}
    (off : ¬ o.GoesOn client s handlings j) (hw : o.waitAt? client s j = some delay)
    (run : (handlings.getD j .run).way = .run) : o.setsTokenAt client s handlings j = true := by
  by_contra quiet
  simp only [Order.setsTokenAt, hw, Option.isSome_some, Bool.true_and, Bool.or_eq_true,
    not_or, Bool.not_eq_true] at quiet
  exact off ⟨⟨delay, hw⟩, quiet.1, Handling.eq_run run quiet.2⟩

/-- Where a task is kept, the token of its call is set. -/
theorem setsTokenAt_of_keptAt {o : Order} (kept : o.keptAt client s handlings j = true) :
    o.setsTokenAt client s handlings j = true := by
  obtain ⟨waited, keep⟩ := Bool.and_eq_true_iff.1 kept
  simp [Order.setsTokenAt, waited, Handling.cancels_of_way_eq_keep (by simpa using keep)]

/-- Where a task is kept, its call is interrupted in its wait. -/
theorem resultAt_of_keptAt {o : Order} (kept : o.keptAt client s handlings j = true) :
    o.resultAt client s handlings j = .error (.plain interruptedWait) := by
  obtain ⟨waited, keep⟩ := Bool.and_eq_true_iff.1 kept
  obtain ⟨delay, hd⟩ := Option.isSome_iff_exists.1 waited
  have way : (handlings.getD j .run).way = .keep := by simpa using keep
  simp only [Order.resultAt, hd, way]

/-- The last attempt of a call brings the result, unless its task is kept. -/
theorem Ahead.attempt_of_not_goesOn {b' : Bench σ} (h : Ahead client o b j j b.tokens b')
    (made : b.tokens.Made token) (unset : b.tokens.isCancelled token = false)
    (fresh : (b.cellOf cell).resolved = false)
    (off : ¬ o.GoesOn client b.client handlings j) :
    ∃ b'', Ahead client o b (j + 1) (j + 1)
        (b.tokens.cancelIf token (o.setsTokenAt client b.client handlings j)) b'' ∧
      b'.attempt client (o.caller token cell j) (handlings.drop j) =
        if o.keptAt client b.client handlings j then
          { b'' with
            parked := b''.parked ++ [⟨o.caller token cell (j + 1), handlings.drop (j + 1)⟩] }
        else b''.resolve cell (o.resultAt client b.client handlings j) := by
  cases hw : o.waitAt? client b.client j with
  | none =>
    obtain ⟨b'', last, same⟩ := h.attempt_of_waitAt?_eq_none token (handlings.drop j)
      cell unset hw
    refine ⟨b'', by simpa [Order.setsTokenAt, hw] using last, same.trans ?_⟩
    simp [Order.keptAt, Order.resultAt, hw]
  | some delay =>
    obtain ⟨b'', last, same⟩ := h.attempt_of_waitAt?_eq_some token (handlings.drop j)
      cell unset hw
    rw [headD_drop] at last same
    have tokens : b''.tokens =
        b.tokens.cancelIf token (o.setsTokenAt client b.client handlings j) := by
      rw [last.tokens]
      simp only [Order.setsTokenAt, hw, Option.isSome_some, Bool.true_and]
    refine ⟨b'', { last with tokens }, same.trans ?_⟩
    cases way : (handlings.getD j .run).way with
    | run =>
      have set := setsTokenAt_of_way_eq_run client b.client off hw way
      have seen : b''.tokens.isCancelled token = true := by
        rw [tokens, set, Tokens.isCancelled_cancelIf_self made, Bool.true_or]
      simp only [Order.keptAt, Order.resultAt, hw, way]
      exact attempt_of_isCancelled b'' client _ _ seen
    | drop =>
      have unresolved : (b''.cellOf cell).resolved = false := by
        rw [cellOf, last.cells]
        exact fresh
      simp only [Order.keptAt, Order.resultAt, hw, way]
      simp [abandon, unresolved]
    | keep =>
      simp only [Order.keptAt, hw, way]
      rw [List.tail_drop]
      rfl

/-- A call under a steered scheduler, told by its replies. -/
theorem request_of_not_goesOn (credential : Text.isAllBlank o.authorization = false)
    (made : b.tokens.Made token) (unset : b.tokens.isCancelled token = false)
    (on : ∀ i < j, o.GoesOn client b.client handlings i)
    (off : ¬ o.GoesOn client b.client handlings j) :
    Finished client o token b handlings j (b.request client o token handlings) := by
  let b₀ : Bench σ := { b with cells := b.cells ++ [{}] }
  have empty : b₀.cellOf b.cells.length = {} := by simp [b₀, cellOf]
  obtain ⟨b', ahead, same⟩ := exists_ahead client token (b := b₀) b.cells.length unset on
  obtain ⟨b'', last, same'⟩ := ahead.attempt_of_not_goesOn client token made unset
    (by rw [empty]) off
  have inside : b.cells.length < b''.cells.length := by rw [last.cells]; simp [b₀]
  have still : b''.cellOf b.cells.length = {} := by rw [cellOf, last.cells]; exact empty
  have run : b.request client o token handlings =
      (b₀.attempt client (o.caller token b.cells.length 0) handlings).await b.cells.length
        token := by
    simp only [request, credential]
    rfl
  rw [run, same, same']
  -- Whether the task is kept decides what is parked and what stands in the cell, and nothing else.
  generalize hx : ite (o.keptAt client b₀.client handlings j = true) _ _ = x
  obtain ⟨state, tokens, cells, sent, builds, delays⟩ : x.client = b''.client ∧
      x.tokens = b''.tokens ∧ x.cells.length = b''.cells.length ∧ x.sent = b''.sent ∧
      x.builds = b''.builds ∧ x.delays = b''.delays := by
    subst hx
    split
    · exact ⟨rfl, rfl, rfl, rfl, rfl, rfl⟩
    · simp [cells_resolve]
  have parked : x.parked = b''.parked ++ if o.keptAt client b.client handlings j then
      [⟨o.caller token b.cells.length (j + 1), handlings.drop (j + 1)⟩] else [] := by
    subst hx
    split <;> simp_all [b₀]
  have result : (x.await b.cells.length token).1 =
      some (o.resultAt client b.client handlings j) := by
    subst hx
    split
    · next kept =>
      have kept : o.keptAt client b.client handlings j = true := kept
      have set : b''.tokens.isCancelled token = true := by
        rw [last.tokens, setsTokenAt_of_keptAt client _ kept,
          Tokens.isCancelled_cancelIf_self made, Bool.true_or]
      rw [resultAt_of_keptAt client _ kept]
      exact fst_await_of_slot_eq_none _ (by rw [cellOf, last.cells, ← cellOf, empty]) set
    · refine fst_await_of_slot_eq_some _ ?_ token
      rw [cellOf_resolve_self _ inside, still, ResultCell.resolve_of_unresolved rfl]
  constructor
  · exact result
  all_goals rw [snd_await]
  · exact state.trans last.state
  · exact tokens.trans last.tokens
  · simp [cells, last.cells, b₀]
  · rw [parked, last.parked]
  · exact sent.trans last.sent
  · exact builds.trans last.builds
  · exact delays.trans last.delays

end Bench

end WebCall.Call
