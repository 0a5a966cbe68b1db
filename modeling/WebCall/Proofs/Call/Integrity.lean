import WebCall.Proofs.Call.Course
import WebCall.Proofs.Call.Custody
import WebCall.Proofs.Http.Fields

/-!
# Integrity of requests

The requests that a call sends are those that its builder makes, one for each invocation and in that
order, and the client gets each of them with the credential of the call in place of any other.
This holds over every scheduler, on whatever thread an attempt runs and whenever tokens are set: the
caller counts the invocations, and it is never copied.

## Main definitions

* `View.Issued`: which requests were sent, and that whoever has the caller knows their number. Every
  step preserves this.
-/
namespace WebCall.Call

variable {σ : Type}

namespace Event

/-- Whether an event is an invocation of the builder or the sending of a request. -/
def outward : Event → Bool
  | built | sent _ => true
  | _ => false

theorem filter_outward_map_noted (records : List Log.Record) :
    (records.map noted).filter outward = [] := by
  simp [List.filter_eq_nil_iff, outward]

/-- Requests and invocations, when they come in pairs. -/
theorem of_filter_outward {es : List Event} {qs : List Sent}
    (h : es.filter outward = qs.flatMap fun q => [built, sent q]) :
    es.filterMap sent? = qs ∧ es.countP isBuilt = qs.length := by
  have sents : es.filterMap sent? = (es.filter outward).filterMap sent? := by
    rw [List.filterMap_filter]
    exact List.filterMap_congr fun e _ => by cases e <;> rfl
  have builts : es.countP isBuilt = (es.filter outward).countP isBuilt := by
    rw [List.countP_filter]
    exact List.countP_congr fun e _ => by cases e <;> simp [isBuilt, outward]
  rw [sents, builts, h]
  clear h sents builts
  induction qs with
  | nil => exact ⟨rfl, rfl⟩
  | cons q qs ih =>
    rw [List.flatMap_cons]
    constructor
    · exact congrArg (q :: ·) ih.1
    · rw [List.countP_append, ih.2, List.length_cons, Nat.add_comm]
      rfl

end Event

theorem Caller.filter_outward_answerEvents (c : Caller)
    (answer : Except Http.TransportError Http.Response) :
    (c.answerEvents answer).filter Event.outward = [] := by
  rw [List.filter_eq_nil_iff]
  intro e he
  rcases c.answerEvents_cases answer he with ⟨_, _, rfl⟩ | ⟨_, _, rfl⟩ | rfl <;>
    simp [Event.outward]

namespace Seat

variable {s s' : Seat σ}

theorem filter_outward_abandon (s : Seat σ) : s.abandon.2.filter Event.outward = [] := by
  rw [abandon]
  split <;> rfl

/-- The same call, perhaps further on. -/
structure Same (s s' : Seat σ) : Prop where
  order : s'.order = s.order
  token : s'.token = s.token
  started : s'.started = s.started

namespace Same

theorem refl (s : Seat σ) : Same s s := ⟨rfl, rfl, rfl⟩

theorem trans {s'' : Seat σ} (h : Same s s') (h' : Same s' s'') : Same s s'' :=
  ⟨h'.order.trans h.order, h'.token.trans h.token, h'.started.trans h.started⟩

theorem leave (s : Seat σ) (onWorker : Bool) (now : Instant) : Same s (s.leave onWorker now) := by
  cases onWorker <;> exact ⟨rfl, rfl, rfl⟩

theorem abandon (s : Seat σ) : Same s s.abandon.1 := by
  rw [Seat.abandon]
  split
  · exact refl s
  · exact ⟨rfl, rfl, rfl⟩

/-- A step of an attempt leaves the call the same. -/
theorem advance (client : Client σ) (cancelled : Bool) (now : Instant) (way : Handover)
    (a : Attempt) (s : Seat σ) : Same s (a.advance client cancelled now way s).seat := by
  obtain ⟨c, stage, onWorker⟩ := a
  match stage with
  | .begun => cases cancelled <;> exact refl s
  | .sent => exact ⟨rfl, rfl, rfl⟩
  | .ended (.resolve _) => exact ⟨rfl, rfl, rfl⟩
  | .ended (.again _) =>
    cases way with
    | keep => exact leave s _ _
    | run => exact refl s
    | drop => exact (abandon s).trans (leave _ _ _)
  | .closing => exact (abandon s).trans (leave _ _ _)

end Same

end Seat

/-- How many requests the caller of an attempt does not count yet, as long as another attempt may
follow. -/
def Stage.own? : Stage → Option Nat
  | begun => some 0
  | sent => some 1
  | ended (.again _) => some 1
  | ended (.resolve _) => none
  | closing => none

theorem Stage.eq_one_of_own?_ended {ending : Ending} {own : Nat}
    (h : (ended ending).own? = some own) : own = 1 := by
  cases ending <;> cases h
  rfl

/-- Whether an attempt that another may follow knows that `n` requests were sent. -/
def Attempt.Counts (o : Order) (token : TokenId) (i n : Nat) (a : Attempt) : Prop :=
  ∀ own, a.stage.own? = some own → ∃ k, k + own = n ∧ a.caller = o.caller token i k

namespace View

variable {o : Order} {token : TokenId} {i n : Nat} {v v' : View σ} {s : Seat σ} {a : Attempt}

/-- After `n` requests of a call: the builder was invoked before each of them, what was sent is what
it made, and whoever has the caller can tell `n`. -/
structure Issued (o : Order) (token : TokenId) (i n : Nat) (v : View σ) : Prop where
  seat : ∀ s, v.seat = some s → s.order = o ∧ s.token = token ∧ (s.started = false → n = 0)
  outward : v.log.filter Event.outward =
    ((List.range n).map o.sentAt).flatMap fun q => [.built, .sent q]
  attempts : ∀ a ∈ v.attempts, a.Counts o token i n
  tasks : ∀ e ∈ v.tasks, e.task = o.caller token i n

namespace Issued

/-- Events without requests. -/
theorem outward_append (h : Issued o token i n v) {new : List Event}
    (quiet : new.filter Event.outward = []) :
    (v.log ++ new).filter Event.outward =
      ((List.range n).map o.sentAt).flatMap fun q => [.built, .sent q] := by
  rw [List.filter_append, quiet, List.append_nil, h.outward]

/-- A request is sent. -/
theorem outward_send (h : Issued o token i n v) :
    (v.log ++ (o.caller token i n).sendEvents false).filter Event.outward =
      ((List.range (n + 1)).map o.sentAt).flatMap fun q => [.built, .sent q] := by
  rw [List.filter_append, h.outward, List.range_succ, List.map_append, List.flatMap_append]
  rfl

/-- The call goes on in its seat. -/
theorem seat_of_same (h : Issued o token i n v) (seat : v.seat = some s) {s' : Seat σ}
    (same : Seat.Same s s') (begun : s.Begun) (m : Nat) :
    ∀ t, some s' = some t → t.order = o ∧ t.token = token ∧ (t.started = false → m = 0) := by
  rintro _ ⟨⟩
  rw [same.order, same.token, same.started, begun.1]
  exact ⟨(h.seat s seat).1, (h.seat s seat).2.1, nofun⟩

/-- The caller of a call is dropped. -/
theorem abandon (h : Issued o token i n v) (now : Instant) :
    Issued o token i n (v.abandon now) := by
  rw [View.abandon]
  cases hs : v.seat with
  | none => exact h
  | some s =>
    have same := Seat.Same.abandon s
    refine ⟨?_, ?_, h.attempts, h.tasks⟩
    · rintro _ ⟨⟩
      rw [same.order, same.token, same.started]
      exact h.seat s hs
    · rw [log_note]
      exact h.outward_append s.filter_outward_abandon

/-- A step of an attempt that hands over no task. Only an attempt that goes past its look at the
token sends a request. -/
theorem go (h : Issued o token i n v) (custody : Custody v) {client : Client σ} {cancelled : Bool}
    {now : Instant} {way : Handover} {pre post : List Attempt} {r : Advance σ}
    (seat : v.seat = some s) (attempts : v.attempts = pre ++ a :: post)
    (advance : a.advance client cancelled now way s = r) (task : r.task = none) :
    ∃ n', Issued o token i n' ({ v with
      seat := some r.seat, attempts := pre ++ r.attempt.toList ++ post }.note now r.events) := by
  obtain ⟨rfl, rfl, tasks, begun, -⟩ := custody.of_attempts seat attempts
  have counts := h.attempts a (by simp [attempts])
  have same : Seat.Same s r.seat := advance ▸ Seat.Same.advance client cancelled now way a s
  have seated := h.seat_of_same seat same begun
  have free (m : Nat) : ∀ e ∈ v.tasks, e.task = o.caller token i m := by simp [tasks]
  have only {m : Nat} {x : Option Attempt} (hx : ∀ b, x = some b → b.Counts o token i m) :
      ∀ b ∈ [] ++ x.toList ++ [], b.Counts o token i m := by simpa using hx
  obtain ⟨c, stage, onWorker⟩ := a
  subst advance
  cases stage with
  | begun =>
    obtain ⟨k, rfl, rfl⟩ := counts 0 rfl
    cases cancelled with
    | true =>
      refine ⟨k, seated _, ?_, only ?_, free _⟩
      · rw [log_note]
        exact h.outward_append rfl
      · rintro _ ⟨⟩ _ ⟨⟩
    | false =>
      refine ⟨k + 1, seated _, ?_, only ?_, free _⟩
      · rw [log_note]
        exact h.outward_send
      · rintro _ ⟨⟩ _ ⟨⟩
        exact ⟨k, rfl, rfl⟩
  | sent =>
    obtain ⟨k, rfl, rfl⟩ := counts 1 rfl
    refine ⟨k + 1, seated _, ?_, only ?_, free _⟩
    · rw [log_note]
      refine h.outward_append ?_
      rw [Attempt.advance, List.filter_append, Event.filter_outward_map_noted,
        Caller.filter_outward_answerEvents, List.append_nil]
    · rintro _ ⟨⟩ own again
      obtain rfl := Stage.eq_one_of_own?_ended again
      exact ⟨k, rfl, rfl⟩
  | ended ending =>
    cases ending with
    | resolve outcome =>
      refine ⟨n, seated _, ?_, only ?_, free _⟩
      · rw [log_note]
        exact h.outward_append rfl
      · rintro _ ⟨⟩ _ ⟨⟩
    | again delay =>
      obtain ⟨k, rfl, rfl⟩ := counts 1 rfl
      cases way with
      | keep => cases task
      | run =>
        refine ⟨k + 1, seated _, ?_, only ?_, free _⟩
        · rw [log_note]
          exact h.outward_append rfl
        · rintro _ ⟨⟩ _ ⟨⟩
          exact ⟨k + 1, rfl, rfl⟩
      | drop =>
        refine ⟨k + 1, seated _, ?_, only ?_, free _⟩
        · rw [log_note]
          exact h.outward_append s.filter_outward_abandon
        · rintro _ ⟨⟩
  | closing =>
    refine ⟨n, seated _, ?_, only ?_, free _⟩
    · rw [log_note]
      exact h.outward_append s.filter_outward_abandon
    · rintro _ ⟨⟩

/-- A step of an attempt that hands over a task. The task has the caller of the next attempt. -/
theorem hand (h : Issued o token i n v) (custody : Custody v) {client : Client σ}
    {cancelled : Bool} {now : Instant} {way : Handover} {pre post : List Attempt} {r : Advance σ}
    {delay : Duration} {c : Caller} (seat : v.seat = some s)
    (attempts : v.attempts = pre ++ a :: post)
    (advance : a.advance client cancelled now way s = r) (task : r.task = some (delay, c)) :
    c = o.caller token i n ∧
      ∀ tasks, (∀ e ∈ tasks, e.task = c ∨ e ∈ v.tasks) → Issued o token i n ({ v with
        seat := some r.seat
        attempts := pre ++ r.attempt.toList ++ post
        tasks := tasks }.note now r.events) := by
  obtain ⟨rfl, rfl, none_, begun, -⟩ := custody.of_attempts seat attempts
  obtain ⟨-, rfl, again, eq⟩ := Attempt.advance_of_task (advance ▸ task)
  rw [advance] at eq
  have counts := h.attempts a (by simp [attempts])
  obtain ⟨k, rfl, caller⟩ := counts 1 (by rw [again]; rfl)
  have next : a.caller.next = o.caller token i (k + 1) := by rw [caller, Order.next_caller]
  subst eq
  refine ⟨next, fun tasks kept => ⟨h.seat_of_same seat (.leave ..) begun _, ?_, nofun, ?_⟩⟩
  · rw [log_note]
    exact h.outward_append rfl
  · intro e he
    rcases kept e he with mine | old
    · exact mine.trans next
    · simp [none_] at old

/-- Every step of a call preserves that what it sends is what its builder makes. -/
theorem step (h : Issued o token i n v) (custody : Custody v) {client : Client σ}
    {before after : Tokens} {now : Instant} {free : Prop}
    (step : View.Step client before after now free i v v') : ∃ n', Issued o token i n' v' := by
  cases step with
  | @refuse s seat idle blank =>
    refine ⟨n, ?_, h.outward, h.attempts, h.tasks⟩
    rintro _ ⟨⟩
    exact ⟨(h.seat s seat).1, (h.seat s seat).2.1, nofun⟩
  | @start s seat idle credential =>
    obtain ⟨-, attempts, tasks, -⟩ := custody.of_idle seat idle
    obtain ⟨rfl, rfl, unsent⟩ := h.seat s seat
    obtain rfl := unsent idle
    refine ⟨0, ?_, h.outward, ?_, h.tasks⟩
    · rintro _ ⟨⟩
      exact ⟨rfl, rfl, nofun⟩
    · intro b hb own begun
      rw [attempts] at hb
      obtain rfl := List.mem_singleton.1 hb
      cases begun
      exact ⟨0, rfl, rfl⟩
  | go seat attempts _ advance task _ => exact h.go custody seat attempts advance task
  | hand seat attempts advance task kept =>
    refine ⟨n, (h.hand custody seat attempts advance task).2 _ fun e he => ?_⟩
    rcases List.mem_cons.1 (kept.mem_iff.1 he) with rfl | old
    · exact .inl rfl
    · exact .inr old
  | lose seat attempts _ advance task =>
    exact ⟨n, ((h.hand custody seat attempts advance task).2 v.tasks fun _ => .inr).abandon now⟩
  | @take e pre post tasks _ =>
    obtain ⟨rfl, rfl, attempts, -⟩ := custody.of_tasks tasks
    refine ⟨n, h.seat, h.outward, ?_, by simp⟩
    intro b hb own begun
    rw [attempts] at hb
    obtain rfl := List.mem_singleton.1 hb
    cases begun
    exact ⟨n, rfl, h.tasks e (by simp [tasks])⟩
  | @discard e pre post tasks _ =>
    have fewer : Issued o token i n { v with tasks := pre ++ post } := by
      refine ⟨h.seat, h.outward, h.attempts, fun x hx => h.tasks x ?_⟩
      rw [tasks]
      exact (List.sublist_cons_self e post).append_left pre |>.mem hx
    exact ⟨n, fewer.abandon now⟩
  | @poll s seat _ _ =>
    refine ⟨n, ?_, h.outward, h.attempts, h.tasks⟩
    rintro _ ⟨⟩
    exact h.seat s seat

end Issued

end View

namespace Crowd

variable {w w' : Crowd σ} {client : Client σ} {o : Order} {token : TokenId} {i : Nat}

theorem Fresh.issued (fresh : w.Fresh) {s : Seat σ} (hs : w.seats[i]? = some s) :
    (w.view i).Issued s.order s.token i 0 where
  seat := by
    intro t ht
    obtain rfl := Option.some.inj (hs.symm.trans ht)
    exact ⟨rfl, rfl, fun _ => rfl⟩
  outward := by simp [View.log, view, eventsOf, fresh.happenings]
  attempts := by simp [view, fresh.attempts]
  tasks := by simp [view, fresh.queue]

/-- Every run preserves that what a call sends is what its builder makes. -/
theorem issued_of_run {moves : List Move} (h : w.run client moves = some w')
    (custody : ∀ j, (w.view j).Custody) {n : Nat} (issued : (w.view i).Issued o token i n) :
    ∃ n', (w'.view i).Issued o token i n' := by
  induction moves generalizing w n with
  | nil =>
    cases h
    exact ⟨n, issued⟩
  | cons m rest ih =>
    obtain ⟨w₁, first, later⟩ := run_cons_eq_some h
    have kept : ∃ n', (w₁.view i).Issued o token i n' := by
      rcases view_move first i with same | step
      · exact ⟨n, same ▸ issued⟩
      · exact issued.step (custody i) step
    obtain ⟨n', issued'⟩ := kept
    exact ih later (custody_of_move first custody) issued'

theorem filterMap_sent?_log (w : Crowd σ) (i : Nat) :
    (w.view i).log.filterMap Event.sent? = w.sentBy i := by
  rw [View.log, List.filterMap_map]
  rfl

/-- Integrity of requests. In every state that a crowd reaches, whatever its schedulers do and
whenever tokens are set, the builder of a call was invoked once for each request that was sent,
right before it. The `k`-th request has the method, the URL and the body of what the builder made
at its `k`-th invocation, and its fields in their spelling, with their values and in their order,
but for those of the credential: of these there is one, it is the last field, and its value is the
credential as it was given. -/
theorem run_integrity (client : Client σ) (fresh : w.Fresh) {moves : List Move}
    (h : w.run client moves = some w') {i : Nat} {s : Seat σ} (hs : w.seats[i]? = some s) :
    let sent := w'.sentBy i
    let made := s.order.build
    let credential := ("Authorization", s.order.authorization)
    ((w'.view i).log.filter Event.outward = sent.flatMap fun q => [.built, .sent q]) ∧
    (w'.view i).log.countP Event.isBuilt = sent.length ∧
    ∀ k q, sent[k]? = some q →
      q.request.method = (made k).method ∧ q.request.url = (made k).url ∧
      q.request.body = (made k).body ∧
      q.request.fields.without "Authorization" = (made k).fields.without "Authorization" ∧
      (q.request.fields.filter fun f => Text.sameName f.1 "Authorization") = [credential] ∧
      q.request.fields.getLast? = some credential := by
  intro sent made credential
  obtain ⟨n, issued⟩ := issued_of_run h fresh.custody (fresh.issued hs)
  have pairs := issued.outward
  obtain ⟨sents, builts⟩ := Event.of_filter_outward pairs
  rw [filterMap_sent?_log] at sents
  have all : sent = (List.range n).map s.order.sentAt := sents
  refine ⟨by rw [pairs, all], by rw [builts, all], fun k q hq => ?_⟩
  obtain rfl : q = s.order.sentAt k := by
    rw [all, List.getElem?_map, Option.map_eq_some_iff] at hq
    obtain ⟨j, hj, rfl⟩ := hq
    obtain ⟨inside, rfl⟩ := List.getElem?_eq_some_iff.1 hj
    rw [List.getElem_range]
  exact ⟨rfl, rfl, rfl, Http.Fields.without_set .., Http.Fields.filter_sameName_set ..,
    List.getLast?_concat ..⟩

/-- A call whose second attempt runs on a worker, and whose builder makes another request at each
invocation, with credentials of its own. -/
theorem run_integrity_retried :
    let client : Client Nat := Client.ofReplies fun j =>
      if j = 0 then ⟨.ok ⟨503, [], ""⟩, false, []⟩ else ⟨.ok ⟨200, [], "done"⟩, false, []⟩
    let order : Order := {
      build := fun j => .make (if j = 0 then .get else .post) "http://host/"
        [.field "AUTHORIZATION" "Bearer stale", .field "X-Page" (if j = 0 then "one" else "two"),
          .field "authorization " "Bearer other"]
      authorization := "Bearer t"
      policy := {} }
    let moves : List Move := [.start 0, .advance 0 .keep, .advance 0 .keep, .advance 0 .keep,
      .pass 5000000000, .work, .advance 0 .keep, .advance 0 .keep, .advance 0 .keep, .poll 0]
    ∃ w q, (gather 1 [(order, 0)]).run client moves = some w ∧ (w.sentBy 0)[1]? = some q ∧
      (w.view 0).log.countP Event.isBuilt = 2 ∧ q.request.method = .post ∧
      q.request.fields.without "Authorization" =
        [("X-Page", "two"), ("authorization ", "Bearer other")] := by
  intro client order moves
  have outcome : ((gather 1 [(order, 0)]).run client moves).map (fun w =>
      (w.sentBy 0).length) = some 2 := by
    decide +kernel
  simp only [Option.map_eq_some_iff] at outcome
  obtain ⟨w, run, two⟩ := outcome
  obtain ⟨-, builds, requests⟩ :=
    run_integrity client (fresh_gather 1 [(order, 0)]) run (i := 0) rfl
  obtain ⟨q, hq⟩ : ∃ q, (w.sentBy 0)[1]? = some q := ⟨_, List.getElem?_eq_getElem (by omega)⟩
  obtain ⟨method, -, -, others, -⟩ := requests 1 q hq
  refine ⟨w, q, run, hq, builds.trans two, method, others.trans ?_⟩
  decide +kernel

end Crowd

end WebCall.Call
