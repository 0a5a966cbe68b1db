import WebCall.Proofs.Call.Course
import WebCall.Proofs.Call.View

/-!
# Phases of a call over a timer

A call over a timer that stays open, with a token that is not set, goes through the same phases
attempt by attempt: it is about to send, its request is with the client, its answer is there, and
then its next attempt is with the timer or its result is there. In each phase it is known what was
sent, what was asked for, in which state its client is, and which steps may come next. So the
replies alone say what it does, and the other calls of the crowd have no part in it; they only
decide when.

## Main definitions

* `timedSends`, `timedWaits`: the requests and the waits of a call with their moments.
* `Order.Seen`: what was seen of a call after so many requests and waits.
* `Order.Phase`: the phases. Every step of an open timer leads from phase to phase.
-/
namespace WebCall.Call

variable {σ : Type}

/-- The requests among events, with the moments of their sending. -/
def timedSends (es : List (Instant × Event)) : List (Instant × Sent) :=
  es.filterMap fun h => h.2.sent?.map fun q => (h.1, q)

/-- The delays among events, with the moments of their scheduling. -/
def timedWaits (es : List (Instant × Event)) : List (Instant × Duration) :=
  es.filterMap fun h => h.2.delay?.map fun d => (h.1, d)

section Timed

variable (es : List (Instant × Event)) (now : Instant) (new : List Event)

theorem timedSends_append_map : timedSends (es ++ new.map fun e => (now, e)) =
    timedSends es ++ (new.filterMap Event.sent?).map fun q => (now, q) := by
  simp only [timedSends, List.filterMap_append, List.filterMap_map, List.map_filterMap]
  rfl

theorem timedWaits_append_map : timedWaits (es ++ new.map fun e => (now, e)) =
    timedWaits es ++ (new.filterMap Event.delay?).map fun d => (now, d) := by
  simp only [timedWaits, List.filterMap_append, List.filterMap_map, List.map_filterMap]
  rfl

theorem map_snd_timedSends :
    (timedSends es).map (·.2) = es.filterMap fun h => h.2.sent? := by
  simp only [timedSends, List.map_filterMap, Option.map_map, Function.comp_def, Option.map_id']

end Timed

/-- Every request waits for the task before it to be due. -/
def Paced (sends : List (Instant × Sent)) (waits : List (Instant × Duration)) : Prop :=
  ∀ k t d t' q, waits[k]? = some (t, d) → sends[k + 1]? = some (t', q) →
    Timer.dueAt Timer.clockLimit t d ≤ t'

namespace Seat

variable {s : Seat σ}

/-- A look into a cell that was never resolved changes nothing while the token is not set. -/
theorem look_of_empty (h : s.cell = {}) : s.look false = s := by
  obtain ⟨order, token, client, started, waiting, cell, result⟩ := s
  subst h
  rfl

/-- Whoever looks into a cell with a result takes it. -/
theorem look_of_slot_eq_some {outcome : Outcome} (h : s.cell.slot = some outcome)
    (cancelled : Bool) :
    s.look cancelled = { s with cell := { s.cell with slot := none }, result := some outcome } := by
  simp [look, ResultCell.round_of_slot_eq_some h]

end Seat

namespace Order

variable (client : Client σ) (o : Order) (token : TokenId) (s₀ : σ)

/-- After `n` requests and `m` waits of a call, all of which were the ones that its replies make it
send and ask for. -/
structure Seen (n m : Nat) (es : List (Instant × Event)) : Prop where
  sends : (timedSends es).map (·.2) = (List.range n).map o.sentAt
  waits : (timedWaits es).map (fun x => some x.2) = (List.range m).map (o.waitAt? client s₀)
  paced : Paced (timedSends es) (timedWaits es)

/-- A call that was started, after `p` replies. -/
structure Along (p : Nat) (s : Seat σ) : Prop where
  order : s.order = o
  token : s.token = token
  credential : Text.isAllBlank o.authorization = false
  started : s.started = true
  state : s.client = o.clientAt client s₀ p
  calm : ∀ k < p, (o.replyAt client s₀ k).setsToken = false

namespace Seen

variable {client o s₀} {n m : Nat} {es : List (Instant × Event)}

theorem nil : Seen client o s₀ 0 0 [] := ⟨rfl, rfl, by simp [Paced, timedWaits]⟩

theorem length_sends (h : Seen client o s₀ n m es) : (timedSends es).length = n := by
  simpa using congrArg List.length h.sends

theorem length_waits (h : Seen client o s₀ n m es) : (timedWaits es).length = m := by
  simpa using congrArg List.length h.waits

/-- Events without requests and waits. -/
theorem skip (h : Seen client o s₀ n m es) (now : Instant) {new : List Event}
    (hs : new.filterMap Event.sent? = []) (hw : new.filterMap Event.delay? = []) :
    Seen client o s₀ n m (es ++ new.map fun e => (now, e)) := by
  have sends : timedSends (es ++ new.map fun e => (now, e)) = timedSends es := by
    simp [timedSends_append_map, hs]
  have waits : timedWaits (es ++ new.map fun e => (now, e)) = timedWaits es := by
    simp [timedWaits_append_map, hw]
  exact ⟨by rw [sends, h.sends], by rw [waits, h.waits], by rw [sends, waits]; exact h.paced⟩

/-- The request of an attempt is sent, when the task of the attempt is due. -/
theorem send (h : Seen client o s₀ n n es) {now : Instant} (cell : Nat)
    (ripe : ∀ x, (timedWaits es).getLast? = some x →
      Timer.dueAt Timer.clockLimit x.1 x.2 ≤ now) :
    Seen client o s₀ (n + 1) n
      (es ++ ((o.caller token cell n).sendEvents false).map fun e => (now, e)) := by
  have sends : timedSends (es ++ ((o.caller token cell n).sendEvents false).map fun e => (now, e)) =
      timedSends es ++ [(now, o.sentAt n)] := by
    rw [timedSends_append_map, Caller.filterMap_sent?_sendEvents]
    rfl
  have waits : timedWaits (es ++ ((o.caller token cell n).sendEvents false).map fun e => (now, e)) =
      timedWaits es := by
    simp [timedWaits_append_map]
  refine ⟨?_, by rw [waits, h.waits], ?_⟩
  · rw [sends, List.map_append, h.sends, List.range_succ, List.map_append]
    rfl
  · rw [sends, waits]
    intro k t d t' q hk hk'
    have inside : k < n := by
      rw [← h.length_waits]
      exact (List.getElem?_eq_some_iff.1 hk).1
    by_cases last : k + 1 < n
    · rw [List.getElem?_append_left (by rw [h.length_sends]; exact last)] at hk'
      exact h.paced k t d t' q hk hk'
    · -- The request that was just sent belongs to the last wait.
      have k_eq : k = n - 1 := by omega
      rw [List.getElem?_append_right (by rw [h.length_sends]; omega), h.length_sends,
        show k + 1 - n = 0 by omega] at hk'
      cases hk'
      refine ripe (t, d) ?_
      rw [List.getLast?_eq_getElem?, h.length_waits, ← k_eq, hk]

/-- The wait of an attempt is asked for. -/
theorem wait (h : Seen client o s₀ (n + 1) n es) (now : Instant) {delay : Duration} (cell : Nat)
    (hw : o.waitAt? client s₀ n = some delay) :
    Seen client o s₀ (n + 1) (n + 1)
      (es ++ [(o.caller token cell n).handoverEvent delay].map fun e => (now, e)) ∧
    (timedWaits (es ++ [(o.caller token cell n).handoverEvent delay].map
      fun e => (now, e))).getLast? = some (now, delay) := by
  have sends : timedSends (es ++ [(o.caller token cell n).handoverEvent delay].map
      fun e => (now, e)) = timedSends es := by
    rw [timedSends_append_map]
    exact List.append_nil _
  have waits : timedWaits (es ++ [(o.caller token cell n).handoverEvent delay].map
      fun e => (now, e)) = timedWaits es ++ [(now, delay)] := by
    rw [timedWaits_append_map]
    rfl
  refine ⟨⟨by rw [sends, h.sends], ?_, ?_⟩, by rw [waits, List.getLast?_concat]⟩
  · rw [waits, List.map_append, h.waits, List.range_succ, List.map_append]
    simp [hw]
  · rw [sends, waits]
    intro k t d t' q hk hk'
    have inside : k + 1 < n + 1 := by
      rw [← h.length_sends]
      exact (List.getElem?_eq_some_iff.1 hk').1
    rw [List.getElem?_append_left (by rw [h.length_waits]; omega)] at hk
    exact h.paced k t d t' q hk hk'

end Seen

namespace Along

variable {client o token s₀} {p : Nat} {s s' : Seat σ}

/-- Nothing but the order, the token, the start and the state of the client matters of a seat. -/
theorem of_seat (h : Along client o token s₀ p s) (order : s'.order = s.order)
    (same : s'.token = s.token) (started : s'.started = s.started)
    (state : s'.client = s.client) : Along client o token s₀ p s' :=
  ⟨order.trans h.order, same.trans h.token, h.credential, started.trans h.started,
    state.trans h.state, h.calm⟩

theorem leave (h : Along client o token s₀ p s) (onWorker : Bool) (now : Instant) :
    Along client o token s₀ p (s.leave onWorker now) := by
  cases onWorker
  · exact h.of_seat rfl rfl rfl rfl
  · exact h

/-- The client gives the reply that is next. -/
theorem client_eq (h : Along client o token s₀ p s) :
    client s.client (o.sentAt p) = (o.replyAt client s₀ p, o.clientAt client s₀ (p + 1)) := by
  rw [h.state]
  rfl

/-- A reply that sets no token is there. -/
theorem answer (h : Along client o token s₀ p s)
    (quiet : (o.replyAt client s₀ p).setsToken = false) :
    Along client o token s₀ (p + 1) { s with client := o.clientAt client s₀ (p + 1) } := by
  refine ⟨h.order, h.token, h.credential, h.started, rfl, ?_⟩
  intro k hk
  rcases Nat.lt_succ_iff_lt_or_eq.1 hk with hk | rfl
  · exact h.calm k hk
  · exact quiet

end Along

/-- The phases of a call at a moment. -/
inductive Phase (i : Nat) (now : Instant) (v : View σ) : Prop
  /-- It was not started. -/
  | idle {s : Seat σ} (seat : v.seat = some s) (order : s.order = o) (same : s.token = token)
      (state : s.client = s₀) (idle : s.started = false) (cell : s.cell = {})
      (result : s.result = none) (attempts : v.attempts = []) (tasks : v.tasks = [])
      (events : v.events = [])
  /-- It was refused. -/
  | refused {s : Seat σ} (seat : v.seat = some s)
      (blank : Text.isAllBlank o.authorization = true) (started : s.started = true)
      (result : s.result = some (.error (.plain Bench.blankAuthorization)))
      (attempts : v.attempts = []) (tasks : v.tasks = []) (events : v.events = [])
  /-- The attempt of number `j` is about to look at its token. -/
  | begun (j : Nat) (onWorker : Bool) {s : Seat σ} (seat : v.seat = some s)
      (along : Along client o token s₀ j s) (cell : s.cell = {}) (result : s.result = none)
      (attempts : v.attempts = [⟨o.caller token i j, .begun, onWorker⟩]) (tasks : v.tasks = [])
      (seen : Seen client o s₀ j j v.events)
      (ripe : ∀ x, (timedWaits v.events).getLast? = some x →
        Timer.dueAt Timer.clockLimit x.1 x.2 ≤ now)
  /-- The request of the attempt of number `j` is with the client. -/
  | sent (j : Nat) (onWorker : Bool) {s : Seat σ} (seat : v.seat = some s)
      (along : Along client o token s₀ j s) (cell : s.cell = {}) (result : s.result = none)
      (attempts : v.attempts = [⟨o.caller token i j, .sent, onWorker⟩]) (tasks : v.tasks = [])
      (seen : Seen client o s₀ (j + 1) j v.events)
  /-- The attempt of number `j` knows what it comes to. -/
  | ended (j : Nat) (onWorker : Bool) {s : Seat σ} (seat : v.seat = some s)
      (along : Along client o token s₀ (j + 1) s) (cell : s.cell = {}) (result : s.result = none)
      (attempts : v.attempts = [⟨o.caller token i j,
        .ended ((o.caller token i j).ending (o.replyAt client s₀ j).outcome), onWorker⟩])
      (tasks : v.tasks = []) (seen : Seen client o s₀ (j + 1) j v.events)
  /-- The attempt after that of number `j` is with the timer. -/
  | held (j : Nat) {s : Seat σ} {e : Entry Caller} (seat : v.seat = some s)
      (along : Along client o token s₀ (j + 1) s) (cell : s.cell = {}) (result : s.result = none)
      (attempts : v.attempts = []) (tasks : v.tasks = [e])
      (task : e.task = o.caller token i (j + 1)) (seen : Seen client o s₀ (j + 1) (j + 1) v.events)
      (due : ∀ x, (timedWaits v.events).getLast? = some x →
        Timer.dueAt Timer.clockLimit x.1 x.2 = e.due)
  /-- The attempt of number `j` was the last, and the result is in the cell or with the thread. -/
  | done (j : Nat) {s : Seat σ} (seat : v.seat = some s)
      (along : Along client o token s₀ (j + 1) s) (last : o.waitAt? client s₀ j = none)
      (resolved : s.cell.resolved = true)
      (result : (s.cell.slot = some (o.lastOutcome client s₀ j) ∧ s.result = none) ∨
        (s.cell.slot = none ∧ s.result = some (o.lastOutcome client s₀ j)))
      (attempts : v.attempts = [] ∨ ∃ a, v.attempts = [a] ∧ a.stage = .closing)
      (tasks : v.tasks = []) (seen : Seen client o s₀ (j + 1) j v.events)

namespace Phase

variable {client o token s₀} {i : Nat} {now : Instant} {v v' : View σ}

/-- Time passes. -/
theorem later (h : Phase client o token s₀ i now v) {moment : Instant} (le : now ≤ moment) :
    Phase client o token s₀ i moment v := by
  cases h with
  | idle seat order same state idle cell result attempts tasks events =>
    exact .idle seat order same state idle cell result attempts tasks events
  | refused seat blank started result attempts tasks events =>
    exact .refused seat blank started result attempts tasks events
  | begun j onWorker seat along cell result attempts tasks seen ripe =>
    exact .begun j onWorker seat along cell result attempts tasks seen fun x hx =>
      Nat.le_trans (ripe x hx) le
  | sent j onWorker seat along cell result attempts tasks seen =>
    exact .sent j onWorker seat along cell result attempts tasks seen
  | ended j onWorker seat along cell result attempts tasks seen =>
    exact .ended j onWorker seat along cell result attempts tasks seen
  | held j seat along cell result attempts tasks task seen due =>
    exact .held j seat along cell result attempts tasks task seen due
  | done j seat along last resolved result attempts tasks seen =>
    exact .done j seat along last resolved result attempts tasks seen

/-- A call that was not started has neither attempts nor tasks nor events. -/
theorem of_idle (h : Phase client o token s₀ i now v) {s : Seat σ} (seat : v.seat = some s)
    (idle : s.started = false) :
    s.order = o ∧ s.token = token ∧ s.client = s₀ ∧ s.cell = {} ∧ s.result = none ∧
      v.attempts = [] ∧ v.tasks = [] ∧ v.events = [] := by
  cases h with
  | idle seat' order same state _ cell result attempts tasks events =>
    obtain rfl := Option.some.inj (seat.symm.trans seat')
    exact ⟨order, same, state, cell, result, attempts, tasks, events⟩
  | refused seat' _ started =>
    obtain rfl := Option.some.inj (seat.symm.trans seat')
    rw [idle] at started
    cases started
  | begun _ _ seat' along | sent _ _ seat' along | ended _ _ seat' along | held _ seat' along
  | done _ seat' along =>
    obtain rfl := Option.some.inj (seat.symm.trans seat')
    have started := along.started
    rw [idle] at started
    cases started

/-- A step of an attempt that hands over no task. -/
theorem go (h : Phase client o token s₀ i now v) {after : Tokens} {s : Seat σ} {a : Attempt}
    {pre post : List Attempt} {r : Advance σ} {before : Tokens} (seat : v.seat = some s)
    (attempts : v.attempts = pre ++ a :: post)
    (advance : a.advance client false now .keep s = r) (task : r.task = none)
    (tokens : after = before.cancelIf a.caller.token r.setsToken)
    (made : before.Made token) (unset : after.isCancelled token = false) :
    Phase client o token s₀ i now ({ v with
      seat := some r.seat
      attempts := pre ++ r.attempt.toList ++ post }.note now r.events) := by
  subst advance
  cases h with
  | idle _ _ _ _ _ _ _ none_ | refused _ _ _ _ none_ | held _ _ _ _ _ none_ =>
    simp [none_] at attempts
  | begun j onWorker seat' along cell result one tasks seen ripe =>
    obtain rfl := Option.some.inj (seat.symm.trans seat')
    obtain ⟨rfl, rfl, rfl⟩ := eq_of_singleton_eq_append_cons (one.symm.trans attempts)
    exact .sent j onWorker rfl along cell result rfl tasks (seen.send token i ripe)
  | sent j onWorker seat' along cell result one tasks seen =>
    obtain rfl := Option.some.inj (seat.symm.trans seat')
    obtain ⟨rfl, rfl, rfl⟩ := eq_of_singleton_eq_append_cons (one.symm.trans attempts)
    simp only [Attempt.advance, Order.sent_caller, along.client_eq] at tokens ⊢
    have quiet : (o.replyAt client s₀ j).setsToken = false := by
      rw [tokens, Order.token_caller, Tokens.isCancelled_cancelIf_self made,
        Bool.or_eq_false_iff] at unset
      exact unset.1
    refine .ended j onWorker rfl (along.answer quiet) cell result rfl tasks (seen.skip now ?_ ?_)
    · simp
    · simp
  | ended j onWorker seat' along cell result one tasks seen =>
    obtain rfl := Option.some.inj (seat.symm.trans seat')
    obtain ⟨rfl, rfl, rfl⟩ := eq_of_singleton_eq_append_cons (one.symm.trans attempts)
    cases last : o.waitAt? client s₀ j with
    | some delay =>
      rw [(o.ending_caller_eq_again_iff client s₀ token i).2 last] at task
      cases task
    | none =>
      have unresolved : s.cell.resolved = false := by rw [cell]
      rw [o.ending_caller_of_waitAt?_eq_none client s₀ token i last]
      simp only [Attempt.advance, Seat.bring, ResultCell.resolve_of_unresolved unresolved]
      exact .done j rfl (along.of_seat rfl rfl rfl rfl) last rfl (.inl ⟨rfl, result⟩)
        (.inr ⟨_, rfl, rfl⟩) tasks (seen.skip now rfl rfl)
  | done j seat' along last resolved result one tasks seen =>
    obtain rfl := Option.some.inj (seat.symm.trans seat')
    rcases one with none_ | ⟨b, one, closing⟩
    · simp [none_] at attempts
    · obtain ⟨rfl, rfl, rfl⟩ := eq_of_singleton_eq_append_cons (one.symm.trans attempts)
      obtain ⟨c, stage, onWorker⟩ := b
      subst closing
      simp only [Attempt.advance, Seat.abandon, resolved, if_true]
      refine .done j rfl (along.leave onWorker now) last ?_ ?_ (.inl rfl) tasks
        (seen.skip now rfl rfl)
      · cases onWorker <;> exact resolved
      · cases onWorker <;> exact result

/-- A step of an attempt that hands over a task. -/
theorem hand (h : Phase client o token s₀ i now v) {s : Seat σ} {a : Attempt}
    {pre post : List Attempt} {r : Advance σ} {delay : Duration} {tasks : List (Entry Caller)}
    {seq : Nat} {c : Caller} (seat : v.seat = some s) (attempts : v.attempts = pre ++ a :: post)
    (advance : a.advance client false now .keep s = r) (task : r.task = some (delay, c))
    (kept : tasks.Perm (⟨Timer.dueAt Timer.clockLimit now delay, seq, c⟩ :: v.tasks)) :
    Phase client o token s₀ i now ({ v with
      seat := some r.seat
      attempts := pre ++ r.attempt.toList ++ post
      tasks }.note now r.events) := by
  subst advance
  cases h with
  | idle _ _ _ _ _ _ _ none_ | refused _ _ _ _ none_ | held _ _ _ _ _ none_ =>
    simp [none_] at attempts
  | begun j onWorker seat' along cell result one | sent j onWorker seat' along cell result one =>
    obtain ⟨rfl, rfl, rfl⟩ := eq_of_singleton_eq_append_cons (one.symm.trans attempts)
    cases task
  | ended j onWorker seat' along cell result one none_ seen =>
    obtain rfl := Option.some.inj (seat.symm.trans seat')
    obtain ⟨rfl, rfl, rfl⟩ := eq_of_singleton_eq_append_cons (one.symm.trans attempts)
    cases hw : o.waitAt? client s₀ j with
    | none =>
      rw [o.ending_caller_of_waitAt?_eq_none client s₀ token i hw] at task
      cases task
    | some d =>
      rw [(o.ending_caller_eq_again_iff client s₀ token i).2 hw] at task ⊢
      cases task
      rw [none_, List.perm_singleton] at kept
      obtain ⟨seen', recent⟩ := seen.wait token now i hw
      refine .held j rfl (along.leave onWorker now) ?_ ?_ rfl kept rfl seen' ?_
      · cases onWorker <;> exact cell
      · cases onWorker <;> exact result
      · intro x hx
        obtain rfl := Option.some.inj (recent.symm.trans hx)
        rfl
  | done j seat' along last resolved result one =>
    rcases one with none_ | ⟨b, one, closing⟩
    · simp [none_] at attempts
    · obtain ⟨rfl, rfl, rfl⟩ := eq_of_singleton_eq_append_cons (one.symm.trans attempts)
      obtain ⟨c, stage, onWorker⟩ := b
      subst closing
      cases task

/-- The task of a call is run. -/
theorem take (h : Phase client o token s₀ i now v) {e : Entry Caller}
    {pre post : List (Entry Caller)} (tasks : v.tasks = pre ++ e :: post) (ripe : e.due ≤ now) :
    Phase client o token s₀ i now { v with
      attempts := v.attempts ++ [{ caller := e.task, onWorker := true }]
      tasks := pre ++ post } := by
  cases h with
  | idle _ _ _ _ _ _ _ _ none_ | refused _ _ _ _ _ none_ | begun _ _ _ _ _ _ _ none_
  | sent _ _ _ _ _ _ _ none_ | ended _ _ _ _ _ _ _ none_ | done _ _ _ _ _ _ _ none_ =>
    simp [none_] at tasks
  | held j seat along cell result attempts one task seen due =>
    obtain ⟨rfl, rfl, rfl⟩ := eq_of_singleton_eq_append_cons (one.symm.trans tasks)
    refine .begun (j + 1) true seat along cell result ?_ rfl seen ?_
    · rw [attempts, task]
      rfl
    · intro x hx
      rw [due x hx]
      exact ripe

/-- The thread of a call looks into its cell. -/
theorem poll (h : Phase client o token s₀ i now v) {s : Seat σ} (seat : v.seat = some s)
    (pending : s.result = none) :
    Phase client o token s₀ i now { v with seat := some (s.look false) } := by
  have unchanged : s.cell = {} → Phase client o token s₀ i now
      { v with seat := some (s.look false) } := by
    intro cell
    rw [Seat.look_of_empty cell, ← seat]
    exact h
  cases h with
  | idle seat' _ _ _ _ cell | begun _ _ seat' _ cell | sent _ _ seat' _ cell
  | ended _ _ seat' _ cell | held _ seat' _ cell =>
    obtain rfl := Option.some.inj (seat.symm.trans seat')
    exact unchanged cell
  | refused seat' blank started result =>
    obtain rfl := Option.some.inj (seat.symm.trans seat')
    rw [pending] at result
    cases result
  | done j seat' along last resolved result attempts tasks seen =>
    obtain rfl := Option.some.inj (seat.symm.trans seat')
    rcases result with ⟨slot, -⟩ | ⟨-, given⟩
    · rw [Seat.look_of_slot_eq_some slot]
      exact .done j rfl (along.of_seat rfl rfl rfl rfl) last resolved (.inr ⟨rfl, rfl⟩) attempts
        tasks seen
    · rw [pending] at given
      cases given

/-- Every step of a call over an open timer leads from phase to phase, as long as the token of the
call is not set. -/
theorem step (h : Phase client o token s₀ i now v) {before after : Tokens} {free : Prop}
    (step : View.Step client before after now free i v v') (bound : ¬ free)
    (made : before.Made token) (unset : ∀ t, before.isCancelled t = false)
    (unset' : after.isCancelled token = false) : Phase client o token s₀ i now v' := by
  cases step with
  | refuse seat idle blank =>
    obtain ⟨order, -, -, -, -, attempts, tasks, events⟩ := h.of_idle seat idle
    exact .refused rfl (order ▸ blank) rfl rfl attempts tasks events
  | start seat idle credential =>
    obtain ⟨rfl, rfl, rfl, cell, result, attempts, tasks, events⟩ := h.of_idle seat idle
    refine .begun 0 false rfl ⟨rfl, rfl, credential, rfl, rfl, by simp⟩ cell result ?_ tasks ?_ ?_
    · rw [attempts]
      rfl
    · rw [events]
      exact .nil
    · intro x hx
      simp [events, timedWaits] at hx
  | go seat attempts habit advance task tokens =>
    rw [unset, habit.resolve_right bound] at advance
    exact h.go seat attempts advance task tokens made unset'
  | hand seat attempts advance task kept =>
    rw [unset] at advance
    exact h.hand seat attempts advance task kept
  | lose _ _ closed => exact absurd closed bound
  | take tasks ripe => exact h.take tasks (ripe.resolve_right bound)
  | discard _ habit => exact absurd habit bound
  | poll seat _ pending =>
    rw [unset]
    exact h.poll seat pending

end Phase

end Order

end WebCall.Call
