import WebCall.Proofs.Call.Custody
import WebCall.Proofs.Call.Kinds

/-!
# The budget of a call

A caller counts the attempts that were begun. The count goes with the caller from thread to thread,
so nobody else has to know it, and it is right whatever the scheduler does: it is the number of
requests that were sent. A call whose policy allows no attempt is attempted once all the same, and
counts as one that allows one.

## Main definitions

* `Retry.Policy.budget`: how many requests a call sends at most.
* `View.Tally`: how many requests, replies and waits there were, and that each wait is the one that
  the reply of its own attempt asks for.
* `View.Budgeted`: whoever has the caller of a call knows the tally. Every step preserves this.
-/
namespace WebCall

/-- How many requests a call sends at most. -/
def Retry.Policy.budget (p : Retry.Policy) : Nat := max 1 p.maxAttempts.toNat

theorem Retry.Policy.budget_lt_size (p : Retry.Policy) : p.budget < UInt32.size := by
  have limit := p.maxAttempts.toNat_lt_size
  have one : 1 < UInt32.size := by decide
  rw [budget]
  omega

namespace Call

variable {σ : Type}

/-! ## Replies and waits with the numbers of their attempts -/

/-- The wait that the end of an exchange asks for. -/
def asked? (policy : Retry.Policy) (e : Exchanged) : Option Duration :=
  Reply.wait? policy ⟨e, false, []⟩

namespace Event

/-- The reply of an event, with the number of its attempt. -/
def reply? : Event → Option (Nat × Exchanged)
  | answered attempt response => some (attempt, .ok response)
  | failed attempt error => some (attempt, .error error)
  | _ => none

/-- The wait of an event, with the number of the attempt after which it comes. -/
def wait? : Event → Option (Nat × Duration)
  | scheduled attempt delay => some (attempt, delay)
  | _ => none

/-- Whether an event changes no tally and says nothing of the budget. -/
def idle : Event → Bool
  | built | noted _ | resolved _ => true
  | _ => false

theorem filterMap_of_idle {es : List Event} (h : ∀ e ∈ es, e.idle = true) :
    es.filterMap sent? = [] ∧ es.filterMap reply? = [] ∧ es.filterMap wait? = [] := by
  have uncounted (e : Event) (he : e ∈ es) : e.sent? = none ∧ e.reply? = none ∧ e.wait? = none := by
    cases e <;> first | exact ⟨rfl, rfl, rfl⟩ | cases h _ he
  simp only [List.filterMap_eq_nil_iff]
  exact ⟨fun e he => (uncounted e he).1, fun e he => (uncounted e he).2.1,
    fun e he => (uncounted e he).2.2⟩

end Event

namespace Caller

variable (c : Caller) (answer : Exchanged)

theorem filterMap_reply?_answerEvents :
    (c.answerEvents answer).filterMap Event.reply? = [(c.attempts + 1, answer)] := by
  simp only [answerEvents]
  cases answer with
  | error e => rfl
  | ok response =>
    cases hv : judge c.order.policy response with
    | done outcome =>
      simp only [hv]
      rfl
    | retry delay =>
      cases hd : c.order.policy.decide (c.attempts + 1) delay <;> simp only [hv, hd] <;> rfl

theorem filterMap_wait?_answerEvents : (c.answerEvents answer).filterMap Event.wait? = [] := by
  rw [List.filterMap_eq_nil_iff]
  intro e he
  rcases c.answerEvents_cases answer he with ⟨_, _, rfl⟩ | ⟨_, _, rfl⟩ | rfl <;> rfl

/-- What an answer comes to for the budget: the next attempt is inside it, or it is used up and the
message names the attempt, or nothing is said of it. -/
theorem ending_cases :
    (∃ delay, c.ending answer = .again delay ∧ asked? c.order.policy answer = some delay ∧
      c.attempts + 1 < c.order.policy.maxAttempts.toNat ∧ .gaveUp ∉ c.answerEvents answer) ∨
    ∃ outcome, c.ending answer = .resolve outcome ∧
      (.gaveUp ∈ c.answerEvents answer →
        c.order.policy.maxAttempts.toNat ≤ c.attempts + 1 ∧
          outcome = .error (.plain (exhausted (c.attempts + 1)))) := by
  let reply : Reply := ⟨answer, false, []⟩
  cases ending : c.ending answer with
  | again delay =>
    obtain ⟨wait, inside⟩ := (ending_eq_again_iff (r := reply)).1 ending
    refine .inl ⟨delay, rfl, wait, inside, ?_⟩
    cases answer with
    | error e => simp [answerEvents]
    | ok response =>
      simp only [answerEvents, Retry.Policy.decide, Nat.not_le.2 inside, if_false]
      cases judge c.order.policy response <;> simp
  | resolve outcome =>
    refine .inr ⟨outcome, rfl, fun gaveUp => ?_⟩
    cases answer with
    | error e => simp [answerEvents] at gaveUp
    | ok response =>
      simp only [answerEvents, Caller.ending, Retry.Policy.decide] at gaveUp ending
      cases verdict : judge c.order.policy response with
      | done _ => simp [verdict] at gaveUp
      | retry delay =>
        simp only [verdict] at gaveUp ending
        by_cases used : c.order.policy.maxAttempts.toNat ≤ c.attempts + 1
        · rw [if_pos used] at ending
          cases ending
          exact ⟨used, rfl⟩
        · simp [used] at gaveUp

end Caller

namespace View

/-! ## The tally -/

/-- How many requests, replies and waits are among the events of a call. Replies and waits have the
numbers of their attempts, and each wait is the one that the reply of its attempt asks for. -/
structure Tally (policy : Retry.Policy) (es : List Event) (sent replied waited : Nat) : Prop where
  sent : (es.filterMap Event.sent?).length = sent
  replied : (es.filterMap Event.reply?).length = replied
  waited : (es.filterMap Event.wait?).length = waited
  asked : ∀ k n delay, (es.filterMap Event.wait?)[k]? = some (n, delay) →
    n = k + 1 ∧ ∃ e, (es.filterMap Event.reply?)[k]? = some (n, e) ∧ asked? policy e = some delay

namespace Tally

variable {policy : Retry.Policy} {es new : List Event} {n r m : Nat}

theorem nil : Tally policy [] 0 0 0 := ⟨rfl, rfl, rfl, nofun⟩

/-- Events that the tally does not count. -/
theorem append (h : Tally policy es n r m) (idle : ∀ e ∈ new, e.idle = true) :
    Tally policy (es ++ new) n r m := by
  obtain ⟨sents, replies, waits⟩ := Event.filterMap_of_idle idle
  refine ⟨?_, ?_, ?_, ?_⟩
  · simpa [sents] using h.sent
  · simpa [replies] using h.replied
  · simpa [waits] using h.waited
  · simpa [replies, waits] using h.asked

/-- A request is sent. -/
theorem send (h : Tally policy es n r m) (c : Caller) (cancelled : Bool) :
    Tally policy (es ++ c.sendEvents cancelled) (n + 1) r m := by
  have replies : (c.sendEvents cancelled).filterMap Event.reply? = [] := rfl
  have waits : (c.sendEvents cancelled).filterMap Event.wait? = [] := rfl
  refine ⟨?_, ?_, ?_, ?_⟩
  · simp [h.sent]
  · simpa [replies] using h.replied
  · simpa [waits] using h.waited
  · simpa [replies, waits] using h.asked

/-- A reply comes in. -/
theorem answer (h : Tally policy es n r m) (c : Caller) (records : List Log.Record)
    (answer : Exchanged) :
    Tally policy (es ++ (records.map Event.noted ++ c.answerEvents answer)) n (r + 1) m := by
  have noted : Tally policy (es ++ records.map Event.noted) n r m :=
    h.append (by simp [Event.idle])
  rw [← List.append_assoc]
  refine ⟨?_, ?_, ?_, fun k i delay hk => ?_⟩
  · rw [List.filterMap_append, c.filterMap_sent?_answerEvents, List.append_nil, noted.sent]
  · rw [List.filterMap_append, c.filterMap_reply?_answerEvents, List.length_append, noted.replied]
    rfl
  · rw [List.filterMap_append, c.filterMap_wait?_answerEvents, List.append_nil, noted.waited]
  · rw [List.filterMap_append, c.filterMap_wait?_answerEvents, List.append_nil] at hk
    obtain ⟨number, e, reply, wait⟩ := noted.asked k i delay hk
    refine ⟨number, e, ?_, wait⟩
    rw [List.filterMap_append,
      List.getElem?_append_left (List.getElem?_eq_some_iff.1 reply).1, reply]

/-- The last reply, right after it came in. -/
theorem getElem?_reply_answer (h : Tally policy es n r m) (c : Caller)
    (records : List Log.Record) (answer : Exchanged) :
    ((es ++ (records.map Event.noted ++ c.answerEvents answer)).filterMap Event.reply?)[r]? =
      some (c.attempts + 1, answer) := by
  have noted : Tally policy (es ++ records.map Event.noted) n r m :=
    h.append (by simp [Event.idle])
  rw [← List.append_assoc, List.filterMap_append, c.filterMap_reply?_answerEvents, ← noted.replied,
    List.getElem?_concat_length]

/-- The wait after the last reply is asked for. -/
theorem handover (h : Tally policy es n r m) {c : Caller} (number : c.attempts = m)
    {answer : Exchanged} {delay : Duration}
    (reply : (es.filterMap Event.reply?)[m]? = some (c.attempts + 1, answer))
    (wait : asked? policy answer = some delay) :
    Tally policy (es ++ [c.handoverEvent delay]) n r (m + 1) := by
  have sents : [c.handoverEvent delay].filterMap Event.sent? = [] := rfl
  have replies : [c.handoverEvent delay].filterMap Event.reply? = [] := rfl
  have waits : [c.handoverEvent delay].filterMap Event.wait? = [(c.attempts + 1, delay)] := rfl
  refine ⟨?_, ?_, ?_, fun k i d hk => ?_⟩
  · rw [List.filterMap_append, sents, List.append_nil, h.sent]
  · rw [List.filterMap_append, replies, List.append_nil, h.replied]
  · rw [List.filterMap_append, waits, List.length_append, h.waited]
    rfl
  · rw [List.filterMap_append, replies, List.append_nil]
    rw [List.filterMap_append, waits] at hk
    by_cases old : k < m
    · rw [List.getElem?_append_left (h.waited.symm ▸ old)] at hk
      exact h.asked k i d hk
    · -- It is the wait that was just asked for.
      rw [List.getElem?_append_right (h.waited.symm ▸ Nat.not_lt.1 old), h.waited,
        List.getElem?_singleton, Option.ite_none_right_eq_some, Option.some.injEq,
        Prod.mk.injEq] at hk
      obtain ⟨new, rfl, rfl⟩ := hk
      obtain rfl : k = m := by omega
      exact ⟨by omega, answer, reply, wait⟩

end Tally

/-! ## The budget -/

/-- A call that comes to an outcome has a reply to every request. It sent no more than its policy
allows, and where it gave up it sent all of them, and the message names their number. -/
def Settled (policy : Retry.Policy) (es : List Event) (outcome : Outcome) : Prop :=
  ∃ n m, Tally policy es n n m ∧ n ≤ policy.budget ∧
    (.gaveUp ∈ es → n = policy.budget ∧ outcome = .error (.plain (exhausted n)))

/-- Whether the tally is that of a call whose `n` attempts all were followed by a wait. -/
def Between (policy : Retry.Policy) (es : List Event) (n : Nat) : Prop :=
  Tally policy es n n n ∧ .gaveUp ∉ es

theorem Settled.append {policy : Retry.Policy} {es new : List Event} {outcome : Outcome}
    (h : Settled policy es outcome) (idle : ∀ e ∈ new, e.idle = true) :
    Settled policy (es ++ new) outcome := by
  obtain ⟨n, m, tally, inside, used⟩ := h
  refine ⟨n, m, tally.append idle, inside, fun gaveUp => used ?_⟩
  rcases List.mem_append.1 gaveUp with old | added
  · exact old
  · cases idle _ added

/-- A call between two attempts comes to whatever ends it there. -/
theorem Between.settled {policy : Retry.Policy} {es : List Event} {n : Nat}
    (h : Between policy es n) (inside : n ≤ policy.budget) (outcome : Outcome) :
    Settled policy es outcome :=
  ⟨n, n, h.1, inside, fun gaveUp => absurd gaveUp h.2⟩

end View

open View (Tally Settled Between)

/-- Whether the tally fits an attempt that `n` others came before. -/
def Stage.Within (policy : Retry.Policy) (es : List Event) (n : Nat) : Stage → Prop
  | begun => Between policy es n
  | sent => Tally policy es (n + 1) n n ∧ .gaveUp ∉ es
  | ended (.again delay) => Tally policy es (n + 1) (n + 1) n ∧ .gaveUp ∉ es ∧
    n + 1 < policy.maxAttempts.toNat ∧
    ∃ e, (es.filterMap Event.reply?)[n]? = some (n + 1, e) ∧ asked? policy e = some delay
  | ended (.resolve outcome) => Settled policy es outcome
  | closing => True

/-- Whether the tally fits what a call has got. -/
structure Seat.Within (o : Order) (es : List Event) (s : Seat σ) : Prop where
  order : s.order = o
  silent : ¬ s.Begun → es = []
  /-- The result is in the cell, or the thread has it. -/
  stored : s.cell.resolved = true →
    ∃ outcome, s.cell.slot.or s.result = some outcome ∧ Settled o.policy es outcome

theorem Seat.abandon_idle (s : Seat σ) : ∀ e ∈ s.abandon.2, e.idle = true := by
  rw [abandon]
  split
  · simp
  · intro e he
    obtain rfl := List.mem_singleton.1 he
    rfl

namespace Seat.Within

variable {o : Order} {es : List Event} {s s' : Seat σ}

/-- Nothing is asked of a call that goes on without a result, but its order. -/
theorem of_unresolved (order : s.order = o) (begun : s.Begun)
    (unresolved : s.cell.resolved = false) : s.Within o es where
  order := order
  silent := absurd begun
  stored := by simp [unresolved]

/-- A result is brought that the tally fits. -/
theorem bring {outcome : Outcome} (order : s.order = o) (begun : s.Begun)
    (unresolved : s.cell.resolved = false) (settled : Settled o.policy es outcome) :
    (s.bring outcome).1.Within o es := by
  rw [bring_of_unresolved unresolved]
  exact ⟨order, absurd begun, fun _ => ⟨outcome, rfl, settled⟩⟩

/-- Events that the tally does not count. -/
theorem append (h : s.Within o es) (begun : s.Begun) {new : List Event}
    (idle : ∀ e ∈ new, e.idle = true) : s.Within o (es ++ new) where
  order := h.order
  silent := absurd begun
  stored := by
    intro resolved
    obtain ⟨outcome, there, settled⟩ := h.stored resolved
    exact ⟨outcome, there, settled.append idle⟩

/-- The caller of a call is dropped by the last who had it. -/
theorem abandon (order : s.order = o) (begun : s.Begun) (unresolved : s.cell.resolved = false)
    {n : Nat} (between : Between o.policy es n) (inside : n ≤ o.policy.budget) :
    s.abandon.1.Within o (es ++ s.abandon.2) := by
  have settled := (between.settled inside (.error (.plain abandoned))).append s.abandon_idle
  rw [abandon_of_unresolved unresolved] at settled ⊢
  exact ⟨order, absurd begun, fun _ => ⟨_, rfl, settled⟩⟩

theorem leave (h : s.Within o es) (onWorker : Bool) (now : Instant) :
    (s.leave onWorker now).Within o es := by
  cases onWorker
  · exact ⟨h.order, h.silent, h.stored⟩
  · exact h

/-- The thread of the call looks into its cell. -/
theorem look (h : s.Within o es) (pending : s.result = none) (cancelled : Bool) :
    (s.look cancelled).Within o es where
  order := h.order
  silent := h.silent
  stored := by
    intro resolved
    rw [Seat.look, ResultCell.resolved_round] at resolved
    obtain ⟨outcome, there, settled⟩ := h.stored resolved
    rw [pending, Option.or_none] at there
    refine ⟨outcome, ?_, settled⟩
    simp only [Seat.look, ResultCell.round_of_slot_eq_some there]
    rfl

end Seat.Within

namespace View

variable {o : Order} {v v' : View σ} {s : Seat σ} {a : Attempt} {i : Nat}

/-- Whether the tally fits an attempt of a call. -/
structure Fits (o : Order) (es : List Event) (a : Attempt) : Prop where
  order : a.caller.order = o
  inside : a.caller.attempts < o.policy.budget
  stage : a.stage.Within o.policy es a.caller.attempts

/-- Whether the tally fits a task that is kept for a call. -/
structure Kept (o : Order) (es : List Event) (c : Caller) : Prop where
  order : c.order = o
  begun : 1 ≤ c.attempts
  inside : c.attempts < o.policy.maxAttempts.toNat
  between : Between o.policy es c.attempts

theorem Kept.le_budget {es : List Event} {c : Caller} (h : Kept o es c) :
    c.attempts < o.policy.budget := by
  have := h.inside
  rw [Retry.Policy.budget]
  omega

/-- Whoever has the caller of a call knows the tally, and the call is inside its budget. -/
structure Budgeted (o : Order) (v : View σ) : Prop where
  seat : ∀ s, v.seat = some s → s.Within o v.log
  attempts : ∀ a ∈ v.attempts, Fits o v.log a
  tasks : ∀ e ∈ v.tasks, Kept o v.log e.task

/-- The next attempt is handed over. -/
theorem Fits.next {es : List Event} {delay : Duration} (h : Fits o es a)
    (again : a.stage = .ended (.again delay)) :
    Kept o (es ++ [a.caller.handoverEvent delay]) a.caller.next := by
  have stage := h.stage
  rw [again] at stage
  obtain ⟨tally, goes, inside, e, reply, wait⟩ := stage
  refine ⟨h.order, Nat.le_add_left .., inside, tally.handover rfl reply wait, ?_⟩
  simpa [Caller.handoverEvent] using goes

/-- A kept task is run. -/
theorem Kept.fits {es : List Event} {c : Caller} (h : Kept o es c) (onWorker : Bool) :
    Fits o es { caller := c, onWorker } :=
  ⟨h.order, h.le_budget, h.between⟩

/-- A reply comes in. -/
theorem Fits.answer {es : List Event} {c : Caller} {onWorker : Bool}
    (h : Fits o es ⟨c, .sent, onWorker⟩) (records : List Log.Record) (answer : Exchanged) :
    Fits o (es ++ (records.map Event.noted ++ c.answerEvents answer))
      ⟨c, .ended (c.ending answer), onWorker⟩ := by
  obtain ⟨rfl, inside, tally, goes⟩ := h
  have replied := tally.answer c records answer
  have silent : .gaveUp ∉ c.answerEvents answer →
      .gaveUp ∉ es ++ (records.map Event.noted ++ c.answerEvents answer) := by
    intro new
    simpa using ⟨goes, new⟩
  refine ⟨rfl, inside, ?_⟩
  rcases c.ending_cases answer with ⟨delay, ending, wait, next, kept⟩ | ⟨outcome, ending, used⟩
  · rw [ending]
    exact ⟨replied, silent kept, next, answer, tally.getElem?_reply_answer c records answer, wait⟩
  · rw [ending]
    refine ⟨_, _, replied, inside, fun gaveUp => ?_⟩
    obtain ⟨up, eq⟩ := used (by by_contra kept; exact silent kept gaveUp)
    have inside : c.attempts < max 1 c.order.policy.maxAttempts.toNat := inside
    refine ⟨?_, eq⟩
    show c.attempts + 1 = max 1 c.order.policy.maxAttempts.toNat
    omega

namespace Budgeted

/-- A step that leaves one attempt, or none, and no task. -/
theorem goOn {es : List Event} {x : Option Attempt} (seat : s.Within o (v.log ++ es))
    (attempt : ∀ b, x = some b → Fits o (v.log ++ es) b) (tasks : v.tasks = []) (now : Instant) :
    Budgeted o ({ v with seat := some s, attempts := [] ++ x.toList ++ [] }.note now es) := by
  refine ⟨?_, ?_, ?_⟩
  · rintro _ ⟨⟩
    rw [log_note]
    exact seat
  · intro b hb
    rw [log_note]
    exact attempt b (by simpa [View.note] using hb)
  · intro e he
    exact absurd (tasks ▸ he) List.not_mem_nil

/-- A step of an attempt that hands over no task. -/
theorem go (h : Budgeted o v) (custody : Custody v) {client : Client σ} {cancelled : Bool}
    {now : Instant} {way : Handover} {pre post : List Attempt} {r : Advance σ}
    (seat : v.seat = some s) (attempts : v.attempts = pre ++ a :: post)
    (advance : a.advance client cancelled now way s = r) (task : r.task = none) :
    Budgeted o ({ v with seat := some r.seat, attempts := pre ++ r.attempt.toList ++ post }.note now
      r.events) := by
  obtain ⟨rfl, rfl, tasks, begun, state⟩ := custody.of_attempts seat attempts
  have fits := h.attempts a (by simp [attempts])
  have seated := h.seat s seat
  obtain ⟨c, stage, onWorker⟩ := a
  subst advance
  match stage, state with
  | .begun, .inl ⟨_, unresolved, _⟩ =>
    obtain ⟨order, inside, between⟩ := fits
    cases cancelled with
    | true =>
      refine goOn (.of_unresolved seated.order begun unresolved) ?_ tasks now
      rintro _ ⟨⟩
      refine ⟨order, inside, ?_⟩
      rw [Attempt.advance, if_pos rfl, List.append_nil]
      exact between.settled (Nat.le_of_lt inside) _
    | false =>
      refine goOn (.of_unresolved seated.order begun unresolved) ?_ tasks now
      rintro _ ⟨⟩
      refine ⟨order, inside, between.1.send c false, ?_⟩
      simpa [Attempt.advance, Caller.sendEvents] using between.2
  | .sent, .inl ⟨_, unresolved, _⟩ =>
    let reply := client s.client (c.sent cancelled)
    have answered := fits.answer reply.1.records reply.1.outcome
    refine goOn (s := { s with client := reply.2 }) (x := some _) ?_ ?_ tasks now
    · exact .of_unresolved seated.order begun unresolved
    · rintro _ ⟨⟩
      exact answered
  | .ended (.resolve outcome), .inl ⟨_, unresolved, _⟩ =>
    obtain ⟨order, inside, settled⟩ := fits
    refine goOn (.bring seated.order begun unresolved (settled.append ?_)) ?_ tasks now
    · simp [Attempt.advance, Seat.bring, Event.idle]
    · rintro _ ⟨⟩
      exact ⟨order, inside, trivial⟩
  | .ended (.again delay), .inl ⟨_, unresolved, _⟩ =>
    have next := fits.next rfl
    cases way with
    | keep => cases task
    | run =>
      refine goOn (.of_unresolved seated.order begun unresolved) ?_ tasks now
      rintro _ ⟨⟩
      exact next.fits onWorker
    | drop =>
      have dropped := Seat.Within.abandon seated.order begun unresolved next.between
        (Nat.le_of_lt next.le_budget)
      rw [List.append_assoc] at dropped
      refine goOn (dropped.leave onWorker now) ?_ tasks now
      rintro _ ⟨⟩
  | .closing, .inr ⟨_, set, _⟩ =>
    simp only [Attempt.advance, Seat.abandon_of_resolved set]
    refine goOn ((seated.append begun (by simp)).leave onWorker now) ?_ tasks now
    rintro _ ⟨⟩
  | .closing, .inl ⟨pending, _, _⟩ => cases pending

/-- The caller of a call is dropped by the last who had it. -/
theorem abandon {u : View σ} (seat : u.seat = some s) (order : s.order = o) (begun : s.Begun)
    (unresolved : s.cell.resolved = false) (attempts : u.attempts = []) (tasks : u.tasks = [])
    {n : Nat} (between : Between o.policy u.log n) (inside : n ≤ o.policy.budget) (now : Instant) :
    Budgeted o (u.abandon now) := by
  have dropped := Seat.Within.abandon order begun unresolved between inside
  obtain ⟨_, _, _, _⟩ := u
  subst attempts
  rw [View.abandon, seat]
  exact goOn (x := none) dropped (by simp) tasks now

/-- A step of an attempt that hands over a task. -/
theorem hand (h : Budgeted o v) (custody : Custody v) {client : Client σ} {cancelled : Bool}
    {now : Instant} {way : Handover} {pre post : List Attempt} {r : Advance σ} {delay : Duration}
    {c : Caller} (seat : v.seat = some s) (attempts : v.attempts = pre ++ a :: post)
    (advance : a.advance client cancelled now way s = r) (task : r.task = some (delay, c)) :
    (∀ tasks, (∀ e ∈ tasks, e.task = c) → Budgeted o ({ v with
      seat := some r.seat
      attempts := pre ++ r.attempt.toList ++ post
      tasks }.note now r.events)) ∧
    Budgeted o (({ v with
      seat := some r.seat
      attempts := pre ++ r.attempt.toList ++ post }.note now r.events).abandon now) := by
  obtain ⟨rfl, rfl, tasks, begun, state⟩ := custody.of_attempts seat attempts
  obtain ⟨-, rfl, again, eq⟩ := Attempt.advance_of_task (advance ▸ task)
  rw [advance] at eq
  subst eq
  rw [again] at state
  rcases state with ⟨-, unresolved, -⟩ | ⟨closing, -⟩
  · have next := (h.attempts a (by simp [attempts])).next again
    have order := (h.seat s seat).order
    have left : (s.leave a.onWorker now).Begun := by simpa [Seat.Begun] using begun
    have still : (s.leave a.onWorker now).cell.resolved = false := by simpa using unresolved
    let handed : View σ := { v with seat := some (s.leave a.onWorker now), attempts := [] }.note now
      [a.caller.handoverEvent delay]
    have between : Between o.policy handed.log (a.caller.attempts + 1) := by
      rw [log_note]
      exact next.between
    refine ⟨fun tasks kept => ⟨?_, ?_, ?_⟩, ?_⟩
    · rintro _ ⟨⟩
      exact .of_unresolved (by simpa using order) left still
    · intro b hb
      exact absurd hb List.not_mem_nil
    · intro e he
      rw [log_note, kept e he]
      exact next
    · exact .abandon (u := handed) rfl (by simpa using order) left still rfl tasks between
        (Nat.le_of_lt next.le_budget) now
  · cases closing

/-- Every step of a call keeps it inside its budget. -/
theorem step (h : Budgeted o v) (custody : Custody v) {client : Client σ} {before after : Tokens}
    {now : Instant} {free : Prop} (step : View.Step client before after now free i v v') :
    Budgeted o v' := by
  cases step with
  | @refuse s seat idle blank =>
    obtain ⟨unresolved, -⟩ := custody.of_idle seat idle
    have seated := h.seat s seat
    refine ⟨?_, h.attempts, h.tasks⟩
    rintro _ ⟨⟩
    exact ⟨seated.order, fun _ => seated.silent (by simp [Seat.Begun, idle]), by simp [unresolved]⟩
  | @start s seat idle credential =>
    obtain ⟨unresolved, attempts, -⟩ := custody.of_idle seat idle
    have seated := h.seat s seat
    have silent : v.log = [] := seated.silent (by simp [Seat.Begun, idle])
    refine ⟨?_, ?_, h.tasks⟩
    · rintro _ ⟨⟩
      exact .of_unresolved seated.order ⟨rfl, credential⟩ unresolved
    · intro b hb
      rw [attempts] at hb
      obtain rfl := List.mem_singleton.1 hb
      refine ⟨seated.order, Nat.lt_of_lt_of_le Nat.zero_lt_one (Nat.le_max_left ..), ?_⟩
      show Between o.policy v.log 0
      rw [silent]
      exact ⟨.nil, List.not_mem_nil⟩
  | go seat attempts _ advance task _ => exact h.go custody seat attempts advance task
  | @hand s a pre post r delay tasks seq c seat attempts advance task kept =>
    obtain ⟨-, -, none_, -⟩ := custody.of_attempts seat attempts
    refine (h.hand custody seat attempts advance task).1 _ fun e he => ?_
    rw [none_, List.perm_singleton] at kept
    rw [kept, List.mem_singleton] at he
    rw [he]
  | lose seat attempts _ advance task => exact (h.hand custody seat attempts advance task).2
  | @take e pre post tasks _ =>
    have kept := h.tasks e (by simp [tasks])
    obtain ⟨rfl, rfl, attempts, -⟩ := custody.of_tasks tasks
    refine ⟨h.seat, ?_, ?_⟩
    · intro b hb
      rw [attempts] at hb
      obtain rfl := List.mem_singleton.1 hb
      exact kept.fits true
    · intro e he
      exact absurd he List.not_mem_nil
  | @discard e pre post tasks _ =>
    have kept := h.tasks e (by simp [tasks])
    obtain ⟨rfl, rfl, attempts, s, seat, begun, unresolved, -⟩ := custody.of_tasks tasks
    exact .abandon (u := { v with tasks := [] }) seat (h.seat s seat).order begun unresolved
      attempts rfl kept.between (Nat.le_of_lt kept.le_budget) now
  | @poll s seat waits pending =>
    refine ⟨?_, h.attempts, h.tasks⟩
    rintro _ ⟨⟩
    exact (h.seat s seat).look pending _

/-- The tally of a call. Where it gave up, the attempt that did so is about to bring the message, or
the call has got it. -/
theorem tally (h : Budgeted o v) (custody : Custody v) (seat : v.seat = some s) :
    ∃ n r m, Tally o.policy v.log n r m ∧ n ≤ o.policy.budget ∧
      (∀ e ∈ v.tasks, e.task.attempts = n) ∧
      (.gaveUp ∈ v.log → n = o.policy.budget ∧
        let gone : Outcome := .error (.plain (exhausted n))
        ((∃ a, v.attempts = [a] ∧ a.stage = .ended (.resolve gone)) ∨
          (s.cell.resolved = true ∧ s.cell.slot.or s.result = some gone))) := by
  have seated := h.seat s seat
  cases custody with
  | absent none_ =>
    rw [none_] at seat
    cases seat
  | idle seat' idle _ _ tasks _ =>
    obtain rfl := Option.some.inj (seat.symm.trans seat')
    rw [seated.silent idle]
    exact ⟨0, 0, 0, .nil, Nat.zero_le _, by simp [tasks], nofun⟩
  | @running _ a seat' begun unresolved attempts pending tasks _ =>
    obtain ⟨order, inside, stage⟩ := h.attempts a (by simp [attempts])
    have untasked (n : Nat) : ∀ e ∈ v.tasks, e.task.attempts = n := by simp [tasks]
    obtain ⟨c, stage', onWorker⟩ := a
    match stage' with
    | .begun =>
      exact ⟨_, _, _, stage.1, Nat.le_of_lt inside, untasked _, fun up => absurd up stage.2⟩
    | .sent => exact ⟨_, _, _, stage.1, inside, untasked _, fun up => absurd up stage.2⟩
    | .ended (.again delay) =>
      exact ⟨_, _, _, stage.1, inside, untasked _, fun up => absurd up stage.2.1⟩
    | .ended (.resolve outcome) =>
      obtain ⟨n, m, tally, le, used⟩ := stage
      refine ⟨n, n, m, tally, le, untasked _, fun up => ?_⟩
      obtain ⟨all, rfl⟩ := used up
      exact ⟨all, .inl ⟨_, attempts, rfl⟩⟩
    | .closing => cases pending
  | @held _ e seat' begun unresolved attempts tasks _ =>
    have kept := h.tasks e (by simp [tasks])
    exact ⟨_, _, _, kept.between.1, Nat.le_of_lt kept.le_budget, by simp [tasks],
      fun up => absurd up kept.between.2⟩
  | resolved seat' begun set attempts tasks _ =>
    obtain rfl := Option.some.inj (seat.symm.trans seat')
    obtain ⟨outcome, there, n, m, tally, le, used⟩ := seated.stored set
    refine ⟨n, n, m, tally, le, by simp [tasks], fun up => ?_⟩
    obtain ⟨all, rfl⟩ := used up
    exact ⟨all, .inr ⟨set, there⟩⟩

end Budgeted

end View

end Call

end WebCall
