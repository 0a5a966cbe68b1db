import Mathlib.Data.List.Basic
import WebCall.Proofs.Call.Moves

/-!
# What a crowd looks like to one call

Of a crowd, a call has its seat, the attempts that go on for it, the tasks that are kept for it and
its events. A move of the crowd leaves the view of a call as it is, unless it is a step of that
call, and there are eight kinds of these. What holds of a call in every run, whatever the other
calls do, is proved over the eight kinds of steps.

## Main definitions

* `Crowd.view`: the view of a call.
* `View.Step`: the steps of a call.
* `Crowd.view_move`: every move is a step of a view or leaves it unchanged.
-/
namespace WebCall.Call

variable {σ : Type}

/-- What a call sees of a crowd. -/
structure View (σ : Type) where
  /-- The call; `none` for a number that no call has. -/
  seat : Option (Seat σ)
  /-- The attempts that go on for it. -/
  attempts : List Attempt
  /-- The tasks that are kept for it. -/
  tasks : List (Entry Caller)
  /-- What happened to it, with the moments. -/
  events : List (Instant × Event)

namespace View

/-- Adds events of one moment. -/
def note (v : View σ) (now : Instant) (events : List Event) : View σ :=
  { v with events := v.events ++ events.map fun e => (now, e) }

@[simp] theorem note_nil (v : View σ) (now : Instant) : v.note now [] = v := by simp [note]

/-- Drops a caller of the call. -/
def abandon (v : View σ) (now : Instant) : View σ :=
  match v.seat with
  | none => v
  | some s => { v with seat := some s.abandon.1 }.note now s.abandon.2

end View

/-- A step of a call. `before` and `after` are the tokens of the crowd before and after it. What a
timer that stays open does not do takes a scheduler that is `free` to do it. -/
inductive View.Step (client : Client σ) (before after : Tokens) (now : Instant) (free : Prop)
    (i : Nat) (v : View σ) : View σ → Prop
  /-- The call is refused. -/
  | refuse {s : Seat σ} (seat : v.seat = some s) (idle : s.started = false)
      (blank : Text.isAllBlank s.order.authorization = true) :
      Step client before after now free i v { v with
        seat := some { s with
          started := true
          result := some (.error (.plain Bench.blankAuthorization)) } }
  /-- The call starts. -/
  | start {s : Seat σ} (seat : v.seat = some s) (idle : s.started = false)
      (credential : Text.isAllBlank s.order.authorization = false) :
      Step client before after now free i v { v with
        seat := some { s with started := true }
        attempts := v.attempts ++ [{ caller := s.caller i }] }
  /-- An attempt goes on and hands over no task that is to be kept. -/
  | go {s : Seat σ} {a : Attempt} {pre post : List Attempt} {way : Handover} {r : Advance σ}
      (seat : v.seat = some s) (attempts : v.attempts = pre ++ a :: post)
      (habit : way = .keep ∨ free)
      (advance : a.advance client (before.isCancelled a.caller.token) now way s = r)
      (task : r.task = none) (tokens : after = before.cancelIf a.caller.token r.setsToken) :
      Step client before after now free i v ({ v with
        seat := some r.seat
        attempts := pre ++ r.attempt.toList ++ post }.note now r.events)
  /-- An attempt hands over a task that is kept. -/
  | hand {s : Seat σ} {a : Attempt} {pre post : List Attempt} {r : Advance σ} {delay : Duration}
      {tasks : List (Entry Caller)} {seq : Nat} {c : Caller} (seat : v.seat = some s)
      (attempts : v.attempts = pre ++ a :: post)
      (advance : a.advance client (before.isCancelled a.caller.token) now .keep s = r)
      (task : r.task = some (delay, c))
      (kept : tasks.Perm (⟨Timer.dueAt Timer.clockLimit now delay, seq, c⟩ :: v.tasks)) :
      Step client before after now free i v ({ v with
        seat := some r.seat
        attempts := pre ++ r.attempt.toList ++ post
        tasks := tasks }.note now r.events)
  /-- An attempt hands over a task to a timer that is closed. -/
  | lose {s : Seat σ} {a : Attempt} {pre post : List Attempt} {r : Advance σ} {delay : Duration}
      {c : Caller} (seat : v.seat = some s) (attempts : v.attempts = pre ++ a :: post)
      (closed : free)
      (advance : a.advance client (before.isCancelled a.caller.token) now .keep s = r)
      (task : r.task = some (delay, c)) :
      Step client before after now free i v (({ v with
        seat := some r.seat
        attempts := pre ++ r.attempt.toList ++ post }.note now r.events).abandon now)
  /-- A task that was kept is run. -/
  | take {e : Entry Caller} {pre post : List (Entry Caller)} (tasks : v.tasks = pre ++ e :: post)
      (ripe : e.due ≤ now ∨ free) :
      Step client before after now free i v { v with
        attempts := v.attempts ++ [{ caller := e.task, onWorker := true }]
        tasks := pre ++ post }
  /-- A task that was kept is dropped. -/
  | discard {e : Entry Caller} {pre post : List (Entry Caller)}
      (tasks : v.tasks = pre ++ e :: post) (habit : free) :
      Step client before after now free i v ({ v with tasks := pre ++ post }.abandon now)
  /-- The thread of the call looks into its cell. -/
  | poll {s : Seat σ} (seat : v.seat = some s) (waits : s.waiting ≠ none)
      (pending : s.result = none) :
      Step client before after now free i v { v with
        seat := some (s.look (before.isCancelled s.token)) }

/-- One member of a list that has no other. -/
theorem eq_of_singleton_eq_append_cons {α : Type} {pre post : List α} {a b : α}
    (h : [b] = pre ++ a :: post) : pre = [] ∧ b = a ∧ post = [] := by
  have parts := List.append_eq_singleton_iff.1 h.symm
  simpa [eq_comm] using parts

namespace Crowd

/-- The view of a call. -/
def view (w : Crowd σ) (i : Nat) : View σ where
  seat := w.seats[i]?
  attempts := w.attempts.filter (·.caller.cell = i)
  tasks := w.timer.queue.filter (·.task.cell = i)
  events := w.eventsOf i

variable (w : Crowd σ) {i j : Nat}

/-! ## The parts of a move -/

theorem eventsOf_note (call : Nat) (es : List Event) :
    (w.note call es).eventsOf i =
      if call = i then w.eventsOf i ++ es.map fun e => (w.clock, e) else w.eventsOf i := by
  simp only [eventsOf, note]
  rw [List.filterMap_append, List.filterMap_map]
  split
  · next same =>
    congr 1
    rw [← List.filterMap_eq_map]
    refine List.filterMap_congr fun e _ => ?_
    simp [same]
  · next other =>
    have none_ : es.filterMap ((fun h : Happening => if h.call = i then some (h.time, h.event)
        else none) ∘ fun e => ⟨w.clock, call, e⟩) = [] := by
      simp [other]
    rw [none_, List.append_nil]

/-- A change of one call is not seen by the others. -/
theorem view_act_of_ne (h : j ≠ i) (s : Seat σ) (es : List Event) :
    (w.act j s es).view i = w.view i := by
  rw [view, act, eventsOf_note, if_neg h]
  simp only [note, List.getElem?_set_ne h]
  rfl

/-- A change of one call is seen by that call. -/
theorem view_act_self {s₀ : Seat σ} (h : w.seats[i]? = some s₀) (s : Seat σ) (es : List Event) :
    (w.act i s es).view i = { w.view i with seat := some s }.note w.clock es := by
  obtain ⟨inside, -⟩ := List.getElem?_eq_some_iff.1 h
  rw [view, act, eventsOf_note, if_pos rfl]
  simp only [note, List.getElem?_set_self inside]
  rfl

theorem view_abandon_of_ne (h : j ≠ i) : (w.abandon j).view i = w.view i := by
  rw [abandon]
  split
  · rfl
  · exact w.view_act_of_ne h _ _

theorem view_abandon_self : (w.abandon i).view i = (w.view i).abandon w.clock := by
  rw [abandon, View.abandon]
  cases h : w.seats[i]? with
  | none => simp only [view, h]
  | some s => simp only [w.view_act_self h, show (w.view i).seat = some s from h]

theorem view_begin_self (c : Caller) (onWorker : Bool) :
    (w.begin c onWorker).view c.cell = { w.view c.cell with
      attempts := (w.view c.cell).attempts ++ [{ caller := c, onWorker }] } := by
  simp [view, begin, eventsOf]

theorem view_begin_of_ne {c : Caller} (other : c.cell ≠ i) (onWorker : Bool) :
    (w.begin c onWorker).view i = w.view i := by
  simp [view, begin, eventsOf, other]

/-- A step of an attempt changes the list of attempts in one place. -/
theorem attempts_replace {k : Nat} {a : Attempt} (h : w.attempts[k]? = some a)
    (x : Option Attempt) :
    (w.replace k x).attempts = w.attempts.take k ++ x.toList ++ w.attempts.drop (k + 1) := by
  obtain ⟨inside, -⟩ := List.getElem?_eq_some_iff.1 h
  cases x with
  | none => simp [replace, List.eraseIdx_eq_take_drop_succ]
  | some b => simp [replace, List.set_eq_take_append_cons_drop, inside]

/-- The list of attempts around one of them. -/
theorem attempts_eq {k : Nat} {a : Attempt} (h : w.attempts[k]? = some a) :
    w.attempts = w.attempts.take k ++ a :: w.attempts.drop (k + 1) := by
  obtain ⟨inside, rfl⟩ := List.getElem?_eq_some_iff.1 h
  rw [List.getElem_cons_drop, List.take_append_drop]

theorem view_replace {k : Nat} {a : Attempt} (h : w.attempts[k]? = some a) (x : Option Attempt) :
    (w.replace k x).view i = { w.view i with
      attempts := (w.attempts.take k ++ x.toList ++ w.attempts.drop (k + 1)).filter
        (·.caller.cell = i) } := by
  have same := w.attempts_replace h x
  rw [view]
  rw [same]
  cases x <;> rfl

/-- A task that is handed to an open timer is kept. -/
theorem view_submit_of_open (delay : Duration) (c : Caller) (h : w.timer.closed = false) :
    ∃ tasks, (w.submit delay c).view c.cell = { w.view c.cell with tasks } ∧
      tasks.Perm (⟨Timer.dueAt Timer.clockLimit w.clock delay, w.timer.nextSeq, c⟩ ::
        (w.view c.cell).tasks) := by
  refine ⟨((w.submit delay c).view c.cell).tasks, ?_, ?_⟩
  · simp [submit, Timer.schedule, h, view, eventsOf]
  · simp only [submit, Timer.schedule, h, view]
    refine ((Timer.insert_perm _ _).filter _).trans (List.Perm.of_eq ?_)
    simp

/-- A task that is handed to a closed timer is dropped. -/
theorem submit_of_closed (delay : Duration) (c : Caller) (h : w.timer.closed = true) :
    w.submit delay c = w.abandon c.cell := by
  simp [submit, Timer.schedule, h]

/-- A task that is handed over is not seen by other calls. -/
theorem view_submit_of_ne (delay : Duration) {c : Caller} (other : c.cell ≠ i) :
    (w.submit delay c).view i = w.view i := by
  cases h : w.timer.closed with
  | false =>
    have unseen := Timer.filter_insert_of_neg (p := fun e : Entry Caller => e.task.cell = i)
      (e := ⟨Timer.dueAt Timer.clockLimit w.clock delay, w.timer.nextSeq, c⟩)
      (by simpa using other) w.timer.queue
    simp [submit, Timer.schedule, h, view, eventsOf, unseen]
  | true => rw [w.submit_of_closed delay c h, view_abandon_of_ne _ other]

/-- The step of an attempt is not seen by other calls. -/
theorem view_enact_of_ne {k : Nat} {a : Attempt} {r : Advance σ} (h : w.attempts[k]? = some a)
    (hr : ∀ b, r.attempt = some b → b.caller.cell = a.caller.cell) (other : a.caller.cell ≠ i) :
    (w.enact k a.caller r).view i = w.view i := by
  have gone : r.attempt.toList.filter (·.caller.cell = i) = [] := by
    cases hb : r.attempt with
    | none => rfl
    | some b => simp [hr b hb, other]
  have around := congrArg (List.filter (·.caller.cell = i)) (w.attempts_eq h)
  rw [List.filter_append, List.filter_cons_of_neg (by simpa using other)] at around
  have same : (w.enact k a.caller r).view i =
      ((w.act a.caller.cell r.seat r.events).replace k r.attempt).view i := rfl
  rw [same, view_replace _ (by exact h), view_act_of_ne _ other, attempts_act, List.filter_append,
    List.filter_append, gone, List.append_nil, ← around]
  rfl

/-- The step of an attempt is seen by its call. -/
theorem view_enact_self {k : Nat} {a : Attempt} {r : Advance σ} {s : Seat σ}
    (h : w.attempts[k]? = some a) (hs : w.seats[i]? = some s) (own : a.caller.cell = i)
    (hr : ∀ b, r.attempt = some b → b.caller.cell = a.caller.cell) :
    ∃ pre post, (w.view i).attempts = pre ++ a :: post ∧
      (w.enact k a.caller r).view i = { w.view i with
        seat := some r.seat
        attempts := pre ++ r.attempt.toList ++ post }.note w.clock r.events := by
  have left : r.attempt.toList.filter (·.caller.cell = i) = r.attempt.toList := by
    cases hb : r.attempt with
    | none => rfl
    | some b => simp [hr b hb, own]
  refine ⟨(w.attempts.take k).filter (·.caller.cell = i),
    (w.attempts.drop (k + 1)).filter (·.caller.cell = i), ?_, ?_⟩
  · have around := congrArg (List.filter (·.caller.cell = i)) (w.attempts_eq h)
    rw [List.filter_append, List.filter_cons_of_pos (by simpa using own)] at around
    exact around
  · have same : (w.enact k a.caller r).view i =
        ((w.act i r.seat r.events).replace k r.attempt).view i := by
      rw [← own]
      rfl
    rw [same, view_replace _ (by exact h), view_act_self _ hs, attempts_act, List.filter_append,
      List.filter_append, left]
    rfl

/-! ## Moves -/

variable {w} {w' : Crowd σ} {client : Client σ}

/-- How a step of an attempt looks to a call. -/
theorem view_advance? {k : Nat} {way : Handover} (h : w.advance? client k way = some w') (i : Nat)
    {free : Prop} (habit : way = .keep ∨ free) (closed : w.timer.closed = true → free) :
    w'.view i = w.view i ∨
      View.Step client w.tokens w'.tokens w.clock free i (w.view i) (w'.view i) := by
  obtain ⟨a, s, r, ha, hs, hr, outcome⟩ := advance?_eq_some h
  have stays : ∀ b, r.attempt = some b → b.caller.cell = a.caller.cell := by
    intro b hb
    rw [← hr] at hb
    exact Attempt.cell_of_advance hb
  by_cases own : a.caller.cell = i
  · -- The attempt is one of this call.
    subst own
    obtain ⟨pre, post, attempts, shown⟩ := w.view_enact_self ha hs rfl stays
    rcases outcome with ⟨task, rfl⟩ | ⟨delay, rfl, task, rfl⟩
    · rw [shown, tokens_enact]
      exact .inr (.go hs attempts habit hr task rfl)
    · cases hc : w.timer.closed with
      | false =>
        obtain ⟨tasks, seen, kept⟩ := (w.enact k a.caller r).view_submit_of_open delay
          a.caller.next (by simpa using hc)
        rw [Caller.cell_next, shown] at seen kept
        rw [clock_enact, timer_enact] at kept
        rw [seen]
        exact .inr (.hand hs attempts hr task kept)
      | true =>
        rw [submit_of_closed _ _ _ (by simpa using hc), Caller.cell_next, view_abandon_self, shown,
          clock_enact]
        exact .inr (.lose hs attempts (closed hc) hr task)
  · -- The attempt is one of another call.
    left
    have unseen := w.view_enact_of_ne ha stays own
    rcases outcome with ⟨-, rfl⟩ | ⟨delay, -, -, rfl⟩
    · exact unseen
    · rw [view_submit_of_ne _ _ (by simpa using own), unseen]

/-- How a start looks to a call. -/
theorem view_start? (h : w.start? j = some w') (i : Nat) (free : Prop) :
    w'.view i = w.view i ∨
      View.Step client w.tokens w'.tokens w.clock free i (w.view i) (w'.view i) := by
  obtain ⟨s, hs, idle, outcome⟩ := start?_eq_some h
  by_cases own : j = i
  · subst own
    right
    rcases outcome with ⟨blank, rfl⟩ | ⟨credential, rfl⟩
    · rw [w.view_act_self hs, View.note_nil]
      exact .refuse hs idle blank
    · have begun := (w.act j { s with started := true } []).view_begin_self (s.caller j) false
      rw [show (s.caller j).cell = j from rfl, w.view_act_self hs, View.note_nil] at begun
      rw [begun]
      exact .start hs idle credential
  · left
    rcases outcome with ⟨-, rfl⟩ | ⟨-, rfl⟩
    · exact w.view_act_of_ne own _ _
    · rw [view_begin_of_ne _ (by exact own), w.view_act_of_ne own]

/-- How the taking of a task out of a timer looks to a call. -/
theorem view_remove {k : Nat} {e : Entry Caller} (h : w.timer.queue[k]? = some e) (i : Nat) :
    (e.task.cell ≠ i ∧ { w with timer := w.timer.remove k }.view i = w.view i) ∨
    (e.task.cell = i ∧ ∃ pre post, (w.view i).tasks = pre ++ e :: post ∧
      { w with timer := w.timer.remove k }.view i = { w.view i with tasks := pre ++ post }) := by
  obtain ⟨inside, rfl⟩ := List.getElem?_eq_some_iff.1 h
  have around : w.timer.queue = w.timer.queue.take k ++ w.timer.queue[k] ::
      w.timer.queue.drop (k + 1) := by
    rw [List.getElem_cons_drop, List.take_append_drop]
  have parts := congrArg (List.filter (·.task.cell = i)) around
  have rest : { w with timer := w.timer.remove k }.view i = { w.view i with
      tasks := (w.timer.queue.take k).filter (·.task.cell = i) ++
        (w.timer.queue.drop (k + 1)).filter (·.task.cell = i) } := by
    simp [view, Timer.remove, List.eraseIdx_eq_take_drop_succ, eventsOf]
  rw [List.filter_append] at parts
  by_cases own : w.timer.queue[k].task.cell = i
  · rw [List.filter_cons_of_pos (by simpa using own)] at parts
    exact .inr ⟨own, _, _, parts, rest⟩
  · rw [List.filter_cons_of_neg (by simpa using own)] at parts
    exact .inl ⟨own, by rw [rest, ← parts]; rfl⟩

/-- How the running of a kept task looks to a call. -/
theorem view_run? {k : Nat} (h : w.run? k = some w') (i : Nat) {free : Prop}
    (ripe : ∀ e, w.timer.queue[k]? = some e → e.due ≤ w.clock ∨ free) :
    w'.view i = w.view i ∨
      View.Step client w.tokens w'.tokens w.clock free i (w.view i) (w'.view i) := by
  obtain ⟨e, he, rfl⟩ := Option.map_eq_some_iff.1 h
  rcases view_remove he i with ⟨other, unseen⟩ | ⟨own, pre, post, tasks, seen⟩
  · rw [view_begin_of_ne _ other]
    exact .inl unseen
  · subst own
    rw [view_begin_self, seen]
    exact .inr (.take tasks (ripe e he))

/-- How the dropping of a kept task looks to a call. -/
theorem view_drop? {k : Nat} (h : w.drop? k = some w') (i : Nat) {free : Prop} (habit : free) :
    w'.view i = w.view i ∨
      View.Step client w.tokens w'.tokens w.clock free i (w.view i) (w'.view i) := by
  obtain ⟨e, he, rfl⟩ := Option.map_eq_some_iff.1 h
  rcases view_remove he i with ⟨other, unseen⟩ | ⟨own, pre, post, tasks, seen⟩
  · rw [view_abandon_of_ne _ other]
    exact .inl unseen
  · rw [own, view_abandon_self, seen]
    exact .inr (.discard tasks habit)

/-- How a look into a cell looks to a call. -/
theorem view_poll? (h : w.poll? j = some w') (i : Nat) (free : Prop) :
    w'.view i = w.view i ∨
      View.Step client w.tokens w'.tokens w.clock free i (w.view i) (w'.view i) := by
  obtain ⟨s, hs, waits, pending, rfl⟩ := poll?_eq_some h
  by_cases own : j = i
  · subst own
    rw [w.view_act_self hs, View.note_nil]
    exact .inr (.poll hs waits pending)
  · rw [w.view_act_of_ne own]
    exact .inl rfl

/-- How any move looks to a call. -/
theorem view_move {m : Move} (h : w.move client m = some w') (i : Nat) :
    w'.view i = w.view i ∨
      View.Step client w.tokens w'.tokens w.clock
        (m.timely = false ∨ w.timer.closed = true) i (w.view i) (w'.view i) := by
  cases m with
  | start call => exact view_start? h i _
  | advance attempt way =>
    refine view_advance? h i ?_ .inr
    cases way <;> simp [Move.timely]
  | work =>
    obtain ⟨run, ripe⟩ := run?_of_work? h
    exact view_run? run i fun e he => .inl (ripe e he)
  | run place => exact view_run? h i fun _ _ => .inr (.inl rfl)
  | drop place => exact view_drop? h i (.inl rfl)
  | close =>
    cases h
    exact .inl rfl
  | poll call => exact view_poll? h i _
  | cancel token =>
    cases h
    exact .inl rfl
  | pass moment =>
    simp only [move, Option.ite_none_right_eq_some, Option.some.injEq] at h
    obtain ⟨-, rfl⟩ := h
    exact .inl rfl

end Crowd

end WebCall.Call
