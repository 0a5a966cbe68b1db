import Mathlib.Algebra.BigOperators.Group.List.Basic
import Mathlib.Algebra.GroupWithZero.Nat
import WebCall.Proofs.Call.Budget
import WebCall.Proofs.Call.Integrity

/-!
# The steps of a call

The attempts of a call follow each other in a chain, each begun by the one before, on a thread of
the call or on one of the scheduler. Every step of the chain uses up some of a number that the
budget sets, and an attempt that is on a thread can always take its next step. So the chain ends,
however the scheduler orders the steps, unless the scheduler itself keeps the task of the next
attempt.

## Main definitions

* `View.stepsLeft`: how many steps the chain of a call has at most.
* `Crowd.stepsOf`: how many steps it makes in a run.
* `Crowd.run_budget`: the budget of a call in every state that a crowd reaches.
-/
namespace WebCall.Call

variable {σ : Type}

/-! ## The steps that are left -/

/-- How many steps are left to the attempts from this one on: none of them takes more than four. -/
def Caller.stepsLeft (c : Caller) : Nat := 4 * (c.order.policy.budget - c.attempts)

/-- How many steps an attempt has made. -/
def Stage.made : Stage → Nat
  | begun => 0
  | sent => 1
  | ended _ => 2
  | closing => 3

/-- How many steps are left to an attempt and those after it. -/
def Attempt.stepsLeft (a : Attempt) : Nat := a.caller.stepsLeft - a.stage.made

/-- How many steps are left to a call that was not started. -/
def Seat.stepsLeft (s : Seat σ) : Nat := if s.started then 0 else 4 * s.order.policy.budget + 1

/-- A step of an attempt uses up a step, also where it hands over the next attempt: that has to be
taken off the queue first. -/
theorem Attempt.stepsLeft_advance {client : Client σ} {cancelled : Bool} {now : Instant}
    {way : Handover} {a : Attempt} {s : Seat σ} {r : Advance σ}
    (h : a.advance client cancelled now way s = r)
    (inside : a.caller.attempts < a.caller.order.policy.budget) :
    (r.attempt.toList.map stepsLeft).sum + (r.task.toList.map fun t => t.2.stepsLeft + 1).sum + 1 ≤
      a.stepsLeft := by
  obtain ⟨c, stage, onWorker⟩ := a
  dsimp only at inside
  subst h
  match stage with
  | .begun =>
    cases cancelled <;> simp [advance, stepsLeft, Caller.stepsLeft, Stage.made] <;> omega
  | .sent =>
    simp [advance, stepsLeft, Caller.stepsLeft, Stage.made]
    omega
  | .ended (.resolve _) =>
    simp [advance, stepsLeft, Caller.stepsLeft, Stage.made]
    omega
  | .ended (.again _) =>
    cases way <;> simp [advance, stepsLeft, Caller.stepsLeft, Stage.made] <;> omega
  | .closing =>
    simp [advance, stepsLeft, Caller.stepsLeft, Stage.made]
    omega

theorem Seat.Same.stepsLeft_eq {s s' : Seat σ} (h : Same s s') : s'.stepsLeft = s.stepsLeft := by
  rw [stepsLeft, h.started, h.order]
  rfl

namespace View

variable {v : View σ}

/-- How many steps the chain of a call has at most. -/
def stepsLeft (v : View σ) : Nat :=
  (v.seat.elim 0 Seat.stepsLeft) + (v.attempts.map Attempt.stepsLeft).sum +
    (v.tasks.map fun e => e.task.stepsLeft + 1).sum

theorem stepsLeft_note (v : View σ) (now : Instant) (es : List Event) :
    (v.note now es).stepsLeft = v.stepsLeft := rfl

theorem stepsLeft_abandon (v : View σ) (now : Instant) :
    (v.abandon now).stepsLeft = v.stepsLeft := by
  rw [abandon]
  cases hs : v.seat with
  | none => rfl
  | some s =>
    have same := (Seat.Same.abandon s).stepsLeft_eq
    rw [stepsLeft_note]
    simp only [stepsLeft, hs, Option.elim_some, same]

end View

namespace Crowd

variable {w w' : Crowd σ} {client : Client σ} {i : Nat} {m : Move} {o : Order}

/-- Whether a move is a step of the chain of a call. -/
def concerns (w : Crowd σ) (i : Nat) : Move → Bool
  | .start call => call = i
  | .advance attempt _ => w.attempts[attempt]?.any (·.caller.cell = i)
  | .work => w.timer.queue[0]?.any (·.task.cell = i)
  | .run place | .drop place => w.timer.queue[place]?.any (·.task.cell = i)
  | .close | .poll _ | .cancel _ | .pass _ => false

/-- How many steps of a run are steps of the chain of a call. -/
def stepsOf (client : Client σ) (i : Nat) (w : Crowd σ) : List Move → Nat
  | [] => 0
  | m :: rest => (if w.concerns i m then 1 else 0) +
    ((w.move client m).map fun w => stepsOf client i w rest).getD 0

/-- A start uses up a step. -/
theorem stepsLeft_start? {j : Nat} (h : w.start? j = some w') :
    (w'.view i).stepsLeft + (if w.concerns i (.start j) then 1 else 0) ≤ (w.view i).stepsLeft := by
  obtain ⟨s, hs, idle, outcome⟩ := start?_eq_some h
  by_cases own : j = i
  · subst own
    have seat : (w.view j).seat = some s := hs
    have before : (w.view j).stepsLeft = 4 * s.order.policy.budget + 1 +
        ((w.view j).attempts.map Attempt.stepsLeft).sum +
        ((w.view j).tasks.map fun e => e.task.stepsLeft + 1).sum := by
      simp [View.stepsLeft, seat, Seat.stepsLeft, idle]
    rw [before]
    rcases outcome with ⟨-, rfl⟩ | ⟨-, rfl⟩
    · rw [w.view_act_self hs, View.stepsLeft_note]
      simp only [View.stepsLeft, Seat.stepsLeft, Option.elim_some, concerns, decide_true, if_true]
      omega
    · have begun := (w.act j { s with started := true } []).view_begin_self (s.caller j) false
      rw [show (s.caller j).cell = j from rfl, w.view_act_self hs, View.note_nil] at begun
      have first : Attempt.stepsLeft { caller := s.caller j } = 4 * s.order.policy.budget := rfl
      rw [begun]
      simp only [View.stepsLeft, Seat.stepsLeft, Option.elim_some, concerns, decide_true, if_true,
        List.map_append, List.map_cons, List.map_nil, List.sum_append, List.sum_cons, List.sum_nil,
        first]
      omega
  · have unconcerned : w.concerns i (.start j) = false := by simp [concerns, own]
    rw [unconcerned]
    rcases outcome with ⟨-, rfl⟩ | ⟨-, rfl⟩
    · rw [w.view_act_of_ne own]
      exact Nat.le_refl _
    · rw [view_begin_of_ne _ (by exact own), w.view_act_of_ne own]
      exact Nat.le_refl _

/-- A task that is handed over adds the steps that are left to it, if it is kept. -/
theorem stepsLeft_submit (w : Crowd σ) (delay : Duration) (c : Caller) :
    ((w.submit delay c).view c.cell).stepsLeft ≤ (w.view c.cell).stepsLeft + (c.stepsLeft + 1) := by
  cases hc : w.timer.closed with
  | false =>
    obtain ⟨tasks, seen, kept⟩ := w.view_submit_of_open delay c hc
    have sum := (kept.map fun e => e.task.stepsLeft + 1).sum_eq
    rw [seen, View.stepsLeft, View.stepsLeft, sum]
    simp only [List.map_cons, List.sum_cons]
    omega
  | true =>
    rw [w.submit_of_closed delay c hc, view_abandon_self, View.stepsLeft_abandon]
    exact Nat.le_add_right ..

/-- The step of an attempt, but for the task that it hands over. -/
theorem stepsLeft_enact {k : Nat} {a : Attempt} {r : Advance σ} {s : Seat σ}
    (ha : w.attempts[k]? = some a) (hs : w.seats[a.caller.cell]? = some s)
    (same : Seat.Same s r.seat) (hr : ∀ b, r.attempt = some b → b.caller.cell = a.caller.cell) :
    ((w.enact k a.caller r).view a.caller.cell).stepsLeft + a.stepsLeft =
      (w.view a.caller.cell).stepsLeft + (r.attempt.toList.map Attempt.stepsLeft).sum := by
  obtain ⟨pre, post, attempts, shown⟩ := w.view_enact_self ha hs rfl hr
  have seat : (w.view a.caller.cell).seat = some s := hs
  rw [shown, View.stepsLeft_note]
  simp only [View.stepsLeft, seat, attempts, Option.elim_some, same.stepsLeft_eq, List.map_append,
    List.map_cons, List.sum_append, List.sum_cons]
  omega

/-- A step of an attempt uses up a step. -/
theorem stepsLeft_advance? {k : Nat} {way : Handover} (h : w.advance? client k way = some w')
    (inside : ∀ a ∈ (w.view i).attempts, a.caller.attempts < a.caller.order.policy.budget) :
    (w'.view i).stepsLeft + (if w.concerns i (.advance k way) then 1 else 0) ≤
      (w.view i).stepsLeft := by
  obtain ⟨a, s, r, ha, hs, hr, outcome⟩ := advance?_eq_some h
  have stays : ∀ b, r.attempt = some b → b.caller.cell = a.caller.cell := by
    intro b hb
    rw [← hr] at hb
    exact Attempt.cell_of_advance hb
  by_cases own : a.caller.cell = i
  · subst own
    have same : Seat.Same s r.seat := hr ▸ Seat.Same.advance ..
    have mine : a ∈ (w.view a.caller.cell).attempts := by
      simpa [view] using List.mem_of_getElem? ha
    have less := Attempt.stepsLeft_advance hr (inside a mine)
    have enacted := stepsLeft_enact ha hs same stays
    have concerned : w.concerns a.caller.cell (.advance k way) = true := by simp [concerns, ha]
    rw [concerned, if_pos rfl]
    rcases outcome with ⟨task, rfl⟩ | ⟨delay, -, task, rfl⟩
    · omega
    · have handed := (w.enact k a.caller r).stepsLeft_submit delay a.caller.next
      rw [Caller.cell_next] at handed
      simp only [task, Option.toList_some, List.map_cons, List.map_nil, List.sum_cons,
        List.sum_nil] at less
      omega
  · have unconcerned : w.concerns i (.advance k way) = false := by simp [concerns, ha, own]
    have unseen := w.view_enact_of_ne ha stays own
    rw [unconcerned]
    rcases outcome with ⟨-, rfl⟩ | ⟨delay, -, -, rfl⟩
    · rw [unseen]
      exact Nat.le_refl _
    · rw [view_submit_of_ne _ _ (by simpa using own), unseen]
      exact Nat.le_refl _

/-- The steps that are left without a task that was kept. -/
theorem stepsLeft_remove {k : Nat} {e : Entry Caller} (h : w.timer.queue[k]? = some e) (i : Nat) :
    ({ w with timer := w.timer.remove k }.view i).stepsLeft +
      (if e.task.cell = i then e.task.stepsLeft + 1 else 0) = (w.view i).stepsLeft := by
  rcases view_remove h i with ⟨other, unseen⟩ | ⟨own, pre, post, tasks, seen⟩
  · rw [unseen, if_neg other, Nat.add_zero]
  · rw [seen, if_pos own]
    simp [View.stepsLeft, tasks]
    omega

/-- The running of a kept task uses up a step. -/
theorem stepsLeft_run? {k : Nat} (h : w.run? k = some w') :
    (w'.view i).stepsLeft + (if w.concerns i (.run k) then 1 else 0) ≤ (w.view i).stepsLeft := by
  obtain ⟨e, he, rfl⟩ := Option.map_eq_some_iff.1 h
  have removed := stepsLeft_remove he i
  by_cases own : e.task.cell = i
  · subst own
    have begun : Attempt.stepsLeft { caller := e.task, onWorker := true } = e.task.stepsLeft := rfl
    rw [view_begin_self, ← removed]
    simp [View.stepsLeft, concerns, he, begun]
    omega
  · rw [view_begin_of_ne _ own, ← removed]
    simp [concerns, he, own]

/-- The dropping of a kept task uses up a step. -/
theorem stepsLeft_drop? {k : Nat} (h : w.drop? k = some w') :
    (w'.view i).stepsLeft + (if w.concerns i (.drop k) then 1 else 0) ≤ (w.view i).stepsLeft := by
  obtain ⟨e, he, rfl⟩ := Option.map_eq_some_iff.1 h
  have removed := stepsLeft_remove he i
  by_cases own : e.task.cell = i
  · subst own
    rw [view_abandon_self, View.stepsLeft_abandon, ← removed]
    simp [concerns, he]
  · rw [view_abandon_of_ne _ own, ← removed]
    simp [concerns, he, own]

/-- Every move that is a step of the chain of a call uses up a step, and no other adds any. -/
theorem stepsLeft_move (h : w.move client m = some w')
    (inside : ∀ a ∈ (w.view i).attempts, a.caller.attempts < a.caller.order.policy.budget) :
    (w'.view i).stepsLeft + (if w.concerns i m then 1 else 0) ≤ (w.view i).stepsLeft := by
  cases m with
  | start call => exact stepsLeft_start? h
  | advance attempt way => exact stepsLeft_advance? h inside
  | work => exact stepsLeft_run? (run?_of_work? h).1
  | run place => exact stepsLeft_run? h
  | drop place => exact stepsLeft_drop? h
  | close =>
    cases h
    exact Nat.le_refl _
  | poll call =>
    obtain ⟨s, hs, -, -, rfl⟩ := poll?_eq_some h
    by_cases own : call = i
    · subst own
      have seat : (w.view call).seat = some s := hs
      rw [w.view_act_self hs, View.stepsLeft_note, View.stepsLeft, View.stepsLeft, seat]
      exact Nat.le_refl _
    · rw [w.view_act_of_ne own]
      exact Nat.le_refl _
  | cancel token =>
    cases h
    exact Nat.le_refl _
  | pass moment =>
    simp only [move, Option.ite_none_right_eq_some, Option.some.injEq] at h
    obtain ⟨-, rfl⟩ := h
    exact Nat.le_refl _

/-! ## Runs -/

/-- Every move keeps a call inside its budget. -/
theorem budgeted_of_move (h : w.move client m = some w') (custody : ∀ j, (w.view j).Custody)
    (budgeted : (w.view i).Budgeted o) : (w'.view i).Budgeted o := by
  rcases view_move h i with same | step
  · rw [same]
    exact budgeted
  · exact budgeted.step (custody i) step

/-- Every run keeps a call inside its budget, and its steps are used up. -/
theorem budgeted_of_run {moves : List Move} (h : w.run client moves = some w')
    (custody : ∀ j, (w.view j).Custody) (budgeted : (w.view i).Budgeted o) :
    (w'.view i).Budgeted o ∧
      (w'.view i).stepsLeft + stepsOf client i w moves ≤ (w.view i).stepsLeft := by
  induction moves generalizing w with
  | nil =>
    cases h
    exact ⟨budgeted, Nat.le_refl _⟩
  | cons m rest ih =>
    obtain ⟨w₁, first, later⟩ := run_cons_eq_some h
    obtain ⟨kept, less⟩ := ih later (custody_of_move first custody)
      (budgeted_of_move first custody budgeted)
    have inside (a : Attempt) (ha : a ∈ (w.view i).attempts) :
        a.caller.attempts < a.caller.order.policy.budget := by
      have fits := budgeted.attempts a ha
      rw [fits.order]
      exact fits.inside
    have used := stepsLeft_move first inside
    refine ⟨kept, ?_⟩
    rw [stepsOf, first, Option.map_some, Option.getD_some]
    omega

/-- An attempt that is on a thread can take its next step. -/
theorem advance?_isSome (custody : ∀ j, (w.view j).Custody) {k : Nat} (h : k < w.attempts.length)
    (way : Handover) : (w.advance? client k way).isSome = true := by
  have ha := List.getElem?_eq_getElem h
  generalize w.attempts[k] = a at ha
  have mine : a ∈ (w.view a.caller.cell).attempts := by
    simpa [view] using List.mem_of_getElem? ha
  cases hs : w.seats[a.caller.cell]? with
  | none =>
    -- A call without a seat has no attempt.
    have seat : (w.view a.caller.cell).seat = none := hs
    cases custody a.caller.cell with
    | absent _ none_ => simp [none_] at mine
    | idle seat' | running seat' | held seat' | resolved seat' => simp [seat] at seat'
  | some s =>
    simp only [advance?, ha, hs]
    split <;> rfl

/-- What a call asks for; of a call that is not there, anything may be said. -/
theorem exists_order (w : Crowd σ) (i : Nat) :
    ∃ o : Order, ∀ s, w.seats[i]? = some s → s.order = o := by
  cases w.seats[i]? with
  | none => exact ⟨⟨fun _ => .new .get "", "", {}⟩, by simp⟩
  | some s => exact ⟨s.order, by simp⟩

theorem Fresh.budgeted (fresh : w.Fresh) (o : Order)
    (order : ∀ s, w.seats[i]? = some s → s.order = o) : (w.view i).Budgeted o where
  seat := by
    intro s hs
    obtain ⟨-, unresolved⟩ := fresh.seats s (List.mem_of_getElem? hs)
    refine ⟨order s hs, fun _ => ?_, by simp [unresolved]⟩
    simp [View.log, view, eventsOf, fresh.happenings]
  attempts := by simp [view, fresh.attempts]
  tasks := by simp [view, fresh.queue]

theorem Fresh.stepsLeft_le (fresh : w.Fresh) (o : Order)
    (order : ∀ s, w.seats[i]? = some s → s.order = o) :
    (w.view i).stepsLeft ≤ 4 * o.policy.budget + 1 := by
  have attempts : (w.view i).attempts = [] := by simp [view, fresh.attempts]
  have tasks : (w.view i).tasks = [] := by simp [view, fresh.queue]
  rw [View.stepsLeft, attempts, tasks]
  cases hs : (w.view i).seat with
  | none => exact Nat.zero_le _
  | some s =>
    obtain ⟨unstarted, -⟩ := fresh.seats s (List.mem_of_getElem? hs)
    simp [Seat.stepsLeft, unstarted, order s hs]

/-- The budget of a call. In every state that a crowd reaches, whatever its schedulers do, whatever
the replies are and whenever tokens are set: a task that is kept counts the requests that were sent,
at least one and fewer than the policy allows; a call sends no more than that, or one if the policy
allows none; its chain makes a bounded number of steps, while every attempt that is on a thread can
take its next step; the count of an attempt that begins does not overflow; each wait is the one that
the reply of its own attempt asks for; and a call that gives up has sent all its requests, and says
so with their number. -/
theorem run_budget (client : Client σ) (fresh : w.Fresh) {moves : List Move}
    (h : w.run client moves = some w') {i : Nat} {s : Seat σ} (hs : w'.seats[i]? = some s) :
    let policy := s.order.policy
    let limit := policy.maxAttempts.toNat
    let log := (w'.view i).log
    let count := (w'.sentBy i).length
    let gone : Outcome :=
      .error (.plain s!"Could not reach the web API after {count} retries.")
    (∀ e ∈ w'.timer.queue, e.task.cell = i →
      1 ≤ e.task.attempts ∧ e.task.attempts < limit ∧ e.task.attempts = count) ∧
    count ≤ max 1 limit ∧
    stepsOf client i w moves ≤ 4 * max 1 limit + 1 ∧
    (∀ k < w'.attempts.length, ∀ way, (w'.move client (.advance k way)).isSome = true) ∧
    (∀ a ∈ w'.attempts, a.caller.cell = i → a.caller.attempts + 1 < UInt32.size) ∧
    (∀ k n delay, (log.filterMap Event.wait?)[k]? = some (n, delay) →
      n = k + 1 ∧
        ∃ e, (log.filterMap Event.reply?)[k]? = some (n, e) ∧ asked? policy e = some delay) ∧
    (.gaveUp ∈ log → count = max 1 limit ∧
      ((∃ a ∈ w'.attempts, a.caller.cell = i ∧ a.stage = .ended (.resolve gone)) ∨
        (s.cell.resolved = true ∧ s.cell.slot.or s.result = some gone))) := by
  intro policy limit log count gone
  have custody := custody_of_run h fresh.custody
  obtain ⟨o, order⟩ := exists_order w i
  obtain ⟨budgeted, used⟩ := budgeted_of_run h fresh.custody (fresh.budgeted o order)
  obtain rfl : s.order = o := (budgeted.seat s hs).order
  have steps := fresh.stepsLeft_le s.order order
  obtain ⟨n, r, m, tally, le, tasks, gaveUp⟩ := budgeted.tally (custody i) hs
  obtain rfl : n = count := by
    rw [← tally.sent, filterMap_sent?_log]
  have mine (a : Attempt) (ha : a ∈ w'.attempts) (own : a.caller.cell = i) :
      a ∈ (w'.view i).attempts := by simpa [view, own] using ha
  refine ⟨?_, le, ?_, fun k hk => advance?_isSome custody hk, ?_, tally.asked, ?_⟩
  · intro e he own
    have kept : e ∈ (w'.view i).tasks := by simpa [view, own] using he
    have known := budgeted.tasks e kept
    exact ⟨known.begun, known.inside, tasks e kept⟩
  · show stepsOf client i w moves ≤ 4 * s.order.policy.budget + 1
    omega
  · intro a ha own
    calc a.caller.attempts + 1 ≤ policy.budget := (budgeted.attempts a (mine a ha own)).inside
      _ < UInt32.size := policy.budget_lt_size
  · intro up
    obtain ⟨all, ⟨a, only, stage⟩ | got⟩ := gaveUp up
    · have ha : a ∈ (w'.view i).attempts := by simp [only]
      rw [view, List.mem_filter, decide_eq_true_iff] at ha
      exact ⟨all, .inl ⟨a, ha.1, ha.2, stage⟩⟩
    · exact ⟨all, .inr got⟩

/-- A call with two attempts whose server stays busy: the second attempt runs on a thread of the
scheduler, and gives up though the token was set meanwhile. -/
theorem run_budget_exhausted :
    let busy : Reply := ⟨.ok ⟨503, [], ""⟩, false, []⟩
    let client : Client Nat := Client.ofReplies fun _ => busy
    let order : Order := ⟨fun _ => .new .get "http://host/", "Bearer t", { maxAttempts := 2 }⟩
    let moves : List Move := [.start 0, .advance 0 .keep, .advance 0 .keep, .advance 0 .keep,
      .run 0, .advance 0 .keep, .cancel 0, .advance 0 .keep, .advance 0 .keep]
    ∃ w s, (gather 1 [(order, 0)]).run client moves = some w ∧ w.seats[0]? = some s ∧
      .gaveUp ∈ (w.view 0).log ∧ (w.sentBy 0).length = 2 ∧
      s.cell.slot.or s.result =
        some (.error (.plain "Could not reach the web API after 2 retries.")) := by
  intro busy client order moves
  have outcome : ((gather 1 [(order, 0)]).run client moves).bind (fun w =>
      (w.seats[0]?).map fun s => (s.order.policy.maxAttempts, s.cell.resolved,
        (w.view 0).log.any fun | .gaveUp => true | _ => false, w.attempts.map (·.stage.made))) =
      some (2, true, true, [3]) := by
    decide +kernel
  simp only [Option.bind_eq_some_iff, Option.map_eq_some_iff, Prod.mk.injEq] at outcome
  obtain ⟨w, run, s, seat, limit, resolved, up, stages⟩ := outcome
  obtain ⟨e, inLog, isGaveUp⟩ := List.any_eq_true.1 up
  have up : .gaveUp ∈ (w.view 0).log := by
    cases e <;> first | exact inLog | cases isGaveUp
  obtain ⟨-, -, -, -, -, -, gaveUp⟩ := run_budget client (fresh_gather 1 [(order, 0)]) run seat
  obtain ⟨count, ⟨a, ha, -, stage⟩ | ⟨-, got⟩⟩ := gaveUp up
  · -- The attempt that gave up has brought the message.
    have made := List.mem_map_of_mem (f := fun a : Attempt => a.stage.made) ha
    rw [stages, stage] at made
    cases List.mem_singleton.1 made
  · rw [limit] at count
    have two : (w.sentBy 0).length = 2 := count
    rw [two] at got
    exact ⟨w, s, run, seat, up, two, got⟩

end Crowd

end WebCall.Call
