import WebCall.Proofs.Call.View

/-!
# Custody of a call

Whoever has the caller of a call answers for its result. A caller is never copied: it goes from one
attempt to a task, and from the task to the next attempt, and the last one who has it brings the
result. So a call that was started is with one attempt, or with one task, or it has its result,
whatever the scheduler does with its tasks and whenever its token is set.

## Main definitions

* `View.Ledger`: requests and answers take turns, and which results were brought to the cell.
* `View.Custody`: who has the caller of a call. Every step preserves this.
* `Crowd.Fresh`: a crowd in which nothing has happened.
-/
namespace WebCall.Call

variable {σ : Type}

namespace Event

/-- Whether an exchange is open after an event. From `none` there is no way back; it is reached when
a request is sent while an exchange is open, and when an answer comes while none is. -/
def turn (state : Option Bool) : Event → Option Bool
  | sent _ => if state = some false then some true else none
  | answered _ _ | failed _ _ => if state = some true then some false else none
  | _ => state

/-- Whether the result was stored, if an event is the bringing of one. -/
def stored? : Event → Option Bool
  | resolved stored => some stored
  | _ => none

/-- What a client says opens and closes nothing. -/
theorem foldl_turn_map_noted (records : List Log.Record) (state : Option Bool) :
    (records.map noted).foldl turn state = state := by
  induction records with
  | nil => rfl
  | cons r rest ih => exact ih

end Event

namespace Caller

variable (c : Caller) (answer : Except Http.TransportError Http.Response)

/-- Every answer closes an exchange. -/
theorem foldl_turn_answerEvents :
    (c.answerEvents answer).foldl Event.turn (some true) = some false := by
  simp only [answerEvents]
  cases answer with
  | error e => rfl
  | ok response =>
    cases hv : judge c.order.policy response with
    | done outcome =>
      simp only [hv]
      rfl
    | retry delay =>
      cases hd : c.order.policy.decide (c.attempts + 1) delay <;> simp only [hv, hd] <;> rfl

theorem filterMap_stored?_answerEvents :
    (c.answerEvents answer).filterMap Event.stored? = [] := by
  rw [List.filterMap_eq_nil_iff]
  intro e he
  rcases c.answerEvents_cases answer he with ⟨_, _, rfl⟩ | ⟨_, _, rfl⟩ | rfl <;> rfl

end Caller

namespace Seat

variable {s : Seat σ}

/-- Whether a call went past the check of its credential. -/
def Begun (s : Seat σ) : Prop :=
  s.started = true ∧ Text.isAllBlank s.order.authorization = false

/-- The first result is stored. -/
theorem bring_of_unresolved (h : s.cell.resolved = false) (outcome : Outcome) :
    s.bring outcome = ({ s with cell := ⟨true, some outcome⟩ }, [.resolved true]) := by
  simp [bring, ResultCell.resolve_of_unresolved h]

theorem abandon_of_unresolved (h : s.cell.resolved = false) :
    s.abandon =
      ({ s with cell := ⟨true, some (.error (.plain abandoned))⟩ }, [.resolved true]) := by
  simp [abandon, h, bring_of_unresolved h]

theorem abandon_of_resolved (h : s.cell.resolved = true) : s.abandon = (s, []) := by
  simp [abandon, h]

@[simp] theorem order_leave (onWorker : Bool) (now : Instant) :
    (s.leave onWorker now).order = s.order := by
  cases onWorker <;> rfl

@[simp] theorem started_leave (onWorker : Bool) (now : Instant) :
    (s.leave onWorker now).started = s.started := by
  cases onWorker <;> rfl

@[simp] theorem cell_leave (onWorker : Bool) (now : Instant) :
    (s.leave onWorker now).cell = s.cell := by
  cases onWorker <;> rfl

end Seat

/-- Whether an attempt has an exchange open. -/
def Stage.exchanging : Stage → Bool
  | sent => true
  | _ => false

/-- Whether an attempt still has to bring a result or to hand over its caller. -/
def Stage.pending : Stage → Bool
  | closing => false
  | _ => true

theorem Stage.exchanging_of_pending {stage : Stage} (h : stage.pending = false) :
    stage.exchanging = false := by
  cases stage <;> simp_all [pending, exchanging]

namespace View

/-- The events without their moments. -/
def log (v : View σ) : List Event := v.events.map (·.2)

@[simp] theorem log_note (v : View σ) (now : Instant) (es : List Event) :
    (v.note now es).log = v.log ++ es := by
  simp [log, note, Function.comp_def]

/-- Requests and answers take turns; `waiting` tells whether the last request has no answer yet, and
`results` tells of each result that was brought to the cell whether it was stored. -/
structure Ledger (es : List Event) (waiting : Bool) (results : List Bool) : Prop where
  turns : es.foldl Event.turn (some false) = some waiting
  results : es.filterMap Event.stored? = results

namespace Ledger

variable {es : List Event} {waiting : Bool} {results : List Bool}

/-- A request is sent. -/
theorem send (h : Ledger es false results) (c : Caller) (cancelled : Bool) :
    Ledger (es ++ c.sendEvents cancelled) true results where
  turns := by
    rw [List.foldl_append, h.turns]
    rfl
  results := by
    have none_ : (c.sendEvents cancelled).filterMap Event.stored? = [] := rfl
    simp [h.results, none_]

/-- An answer comes in. -/
theorem answer (h : Ledger es true results) (c : Caller) (records : List Log.Record)
    (outcome : Except Http.TransportError Http.Response) :
    Ledger (es ++ (records.map Event.noted ++ c.answerEvents outcome)) false results where
  turns := by
    rw [List.foldl_append, List.foldl_append, h.turns, Event.foldl_turn_map_noted,
      c.foldl_turn_answerEvents]
  results := by
    simp [h.results, c.filterMap_stored?_answerEvents, Event.stored?]

/-- A result is brought. -/
theorem bring (h : Ledger es false []) : Ledger (es ++ [.resolved true]) false [true] where
  turns := by
    rw [List.foldl_append, h.turns]
    rfl
  results := by simp [h.results, Event.stored?]

/-- The next attempt is handed over. -/
theorem handover (h : Ledger es waiting results) (c : Caller) (delay : Duration) :
    Ledger (es ++ [c.handoverEvent delay]) waiting results where
  turns := by
    rw [List.foldl_append, h.turns]
    rfl
  results := by simp [h.results, Caller.handoverEvent, Event.stored?]

end Ledger

/-- Who has the caller of a call. -/
inductive Custody (v : View σ) : Prop
  /-- There is no such call. -/
  | absent (seat : v.seat = none) (attempts : v.attempts = []) (tasks : v.tasks = [])
  /-- The call was not started, or it was refused. -/
  | idle {s : Seat σ} (seat : v.seat = some s) (idle : ¬ s.Begun)
      (unresolved : s.cell.resolved = false) (attempts : v.attempts = []) (tasks : v.tasks = [])
      (ledger : Ledger v.log false [])
  /-- One attempt has it. -/
  | running {s : Seat σ} {a : Attempt} (seat : v.seat = some s) (begun : s.Begun)
      (unresolved : s.cell.resolved = false) (attempts : v.attempts = [a])
      (pending : a.stage.pending = true) (tasks : v.tasks = [])
      (ledger : Ledger v.log a.stage.exchanging [])
  /-- One task has it. -/
  | held {s : Seat σ} {e : Entry Caller} (seat : v.seat = some s) (begun : s.Begun)
      (unresolved : s.cell.resolved = false) (attempts : v.attempts = []) (tasks : v.tasks = [e])
      (ledger : Ledger v.log false [])
  /-- The result was brought; the attempt that did so may still be on its thread. -/
  | resolved {s : Seat σ} (seat : v.seat = some s) (begun : s.Begun)
      (resolved : s.cell.resolved = true)
      (attempts : v.attempts = [] ∨ ∃ a, v.attempts = [a] ∧ a.stage.pending = false)
      (tasks : v.tasks = []) (ledger : Ledger v.log false [true])

namespace Custody

variable {v v' : View σ} {s : Seat σ} {a : Attempt} {e : Entry Caller}

/-- A call that has an attempt has no other, and it has no task. -/
theorem of_attempts (h : Custody v) {pre post : List Attempt} (seat : v.seat = some s)
    (attempts : v.attempts = pre ++ a :: post) :
    pre = [] ∧ post = [] ∧ v.tasks = [] ∧ s.Begun ∧
      ((a.stage.pending = true ∧ s.cell.resolved = false ∧ Ledger v.log a.stage.exchanging []) ∨
        (a.stage.pending = false ∧ s.cell.resolved = true ∧ Ledger v.log false [true])) := by
  cases h with
  | absent none_ none' => simp [none'] at attempts
  | idle _ _ _ none_ => simp [none_] at attempts
  | running seat' begun unresolved one pending tasks ledger =>
    obtain ⟨hp, rfl, hq⟩ := eq_of_singleton_eq_append_cons (one.symm.trans attempts)
    rw [seat, Option.some.injEq] at seat'
    subst seat'
    exact ⟨hp, hq, tasks, begun, .inl ⟨pending, unresolved, ledger⟩⟩
  | held _ _ _ none_ => simp [none_] at attempts
  | resolved seat' begun resolved one tasks ledger =>
    rcases one with none_ | ⟨b, one, closing⟩
    · simp [none_] at attempts
    · obtain ⟨hp, rfl, hq⟩ := eq_of_singleton_eq_append_cons (one.symm.trans attempts)
      rw [seat, Option.some.injEq] at seat'
      subst seat'
      exact ⟨hp, hq, tasks, begun, .inr ⟨closing, resolved, ledger⟩⟩

/-- A call that has a task has no other, and it has no attempt. -/
theorem of_tasks (h : Custody v) {pre post : List (Entry Caller)}
    (tasks : v.tasks = pre ++ e :: post) :
    pre = [] ∧ post = [] ∧ v.attempts = [] ∧
      ∃ s, v.seat = some s ∧ s.Begun ∧ s.cell.resolved = false ∧ Ledger v.log false [] := by
  cases h with
  | absent _ _ none_ => simp [none_] at tasks
  | idle _ _ _ _ none_ => simp [none_] at tasks
  | running _ _ _ _ _ none_ => simp [none_] at tasks
  | held seat begun unresolved attempts one ledger =>
    obtain ⟨hp, -, hq⟩ := eq_of_singleton_eq_append_cons (one.symm.trans tasks)
    exact ⟨hp, hq, attempts, _, seat, begun, unresolved, ledger⟩
  | resolved _ _ _ _ none_ => simp [none_] at tasks

/-- A call that was not started has nothing. -/
theorem of_idle (h : Custody v) (seat : v.seat = some s) (idle : s.started = false) :
    s.cell.resolved = false ∧ v.attempts = [] ∧ v.tasks = [] ∧ Ledger v.log false [] := by
  have unbegun : ¬ s.Begun := by
    rintro ⟨started, -⟩
    rw [idle] at started
    cases started
  cases h with
  | absent none_ => simp [none_] at seat
  | idle seat' _ unresolved attempts tasks ledger =>
    rw [seat, Option.some.injEq] at seat'
    subst seat'
    exact ⟨unresolved, attempts, tasks, ledger⟩
  | running seat' begun | held seat' begun | resolved seat' begun =>
    rw [seat, Option.some.injEq] at seat'
    subst seat'
    exact absurd begun unbegun

/-- Nothing but the order, the start and the flag of the cell matters of a seat. -/
theorem of_seat (h : Custody v) {s' : Seat σ} (seat : v.seat = some s)
    (order : s'.order = s.order) (started : s'.started = s.started)
    (resolved : s'.cell.resolved = s.cell.resolved) : Custody { v with seat := some s' } := by
  have begun_iff : s'.Begun ↔ s.Begun := by simp [Seat.Begun, order, started]
  cases h with
  | absent none_ => simp [none_] at seat
  | idle seat' idle unresolved attempts tasks ledger =>
    rw [seat, Option.some.injEq] at seat'
    subst seat'
    exact .idle rfl (mt begun_iff.1 idle) (resolved.trans unresolved) attempts tasks ledger
  | running seat' begun unresolved attempts pending tasks ledger =>
    rw [seat, Option.some.injEq] at seat'
    subst seat'
    exact .running rfl (begun_iff.2 begun) (resolved.trans unresolved) attempts pending tasks ledger
  | held seat' begun unresolved attempts tasks ledger =>
    rw [seat, Option.some.injEq] at seat'
    subst seat'
    exact .held rfl (begun_iff.2 begun) (resolved.trans unresolved) attempts tasks ledger
  | resolved seat' begun set attempts tasks ledger =>
    rw [seat, Option.some.injEq] at seat'
    subst seat'
    exact .resolved rfl (begun_iff.2 begun) (resolved.trans set) attempts tasks ledger

/-- A step of an attempt that hands over no task. -/
theorem go (h : Custody v) {client : Client σ} {cancelled : Bool} {now : Instant} {way : Handover}
    {pre post : List Attempt} {r : Advance σ} (seat : v.seat = some s)
    (attempts : v.attempts = pre ++ a :: post) (advance : a.advance client cancelled now way s = r)
    (task : r.task = none) :
    Custody ({ v with seat := some r.seat, attempts := pre ++ r.attempt.toList ++ post }.note now
      r.events) := by
  obtain ⟨rfl, rfl, tasks, begun, state⟩ := h.of_attempts seat attempts
  obtain ⟨c, stage, onWorker⟩ := a
  subst advance
  -- One case for each line of `Attempt.advance`.
  match stage, state with
  | .begun, .inl ⟨_, unresolved, ledger⟩ =>
    cases cancelled with
    | true =>
      refine .running rfl begun unresolved rfl rfl tasks ?_
      rw [log_note]
      exact (List.append_nil v.log).symm ▸ ledger
    | false =>
      refine .running rfl begun unresolved rfl rfl tasks ?_
      rw [log_note]
      exact ledger.send c false
  | .sent, .inl ⟨_, unresolved, ledger⟩ =>
    refine .running rfl begun unresolved rfl rfl tasks ?_
    rw [log_note]
    exact ledger.answer c _ _
  | .ended (.resolve outcome), .inl ⟨_, unresolved, ledger⟩ =>
    simp only [Attempt.advance, Seat.bring_of_unresolved unresolved]
    refine .resolved rfl begun rfl (.inr ⟨_, rfl, rfl⟩) tasks ?_
    rw [log_note]
    exact ledger.bring
  | .ended (.again delay), .inl ⟨_, unresolved, ledger⟩ =>
    cases way with
    | keep => cases task
    | run =>
      refine .running rfl begun unresolved rfl rfl tasks ?_
      rw [log_note]
      exact ledger.handover c delay
    | drop =>
      simp only [Attempt.advance, Seat.abandon_of_unresolved unresolved]
      refine .resolved rfl ?_ (by simp) (.inl rfl) tasks ?_
      · simpa [Seat.Begun] using begun
      · rw [log_note, List.append_cons]
        exact (ledger.handover c delay).bring
  | .closing, .inr ⟨_, set, ledger⟩ =>
    simp only [Attempt.advance, Seat.abandon_of_resolved set]
    refine .resolved rfl ?_ (by simpa using set) (.inl rfl) tasks ?_
    · simpa [Seat.Begun] using begun
    · rw [log_note]
      exact (List.append_nil v.log).symm ▸ ledger
  | .closing, .inl ⟨pending, _, _⟩ => cases pending

/-- A step of an attempt that hands over a task, to a scheduler that keeps it. -/
theorem hand (h : Custody v) {client : Client σ} {cancelled : Bool} {now : Instant}
    {way : Handover} {pre post : List Attempt} {r : Advance σ} {delay : Duration} {c : Caller}
    {tasks : List (Entry Caller)} (seat : v.seat = some s)
    (attempts : v.attempts = pre ++ a :: post)
    (advance : a.advance client cancelled now way s = r) (task : r.task = some (delay, c))
    (kept : tasks.Perm (e :: v.tasks)) :
    Custody ({ v with
      seat := some r.seat
      attempts := pre ++ r.attempt.toList ++ post
      tasks }.note now r.events) := by
  obtain ⟨rfl, rfl, none_, begun, state⟩ := h.of_attempts seat attempts
  obtain ⟨-, -, again, eq⟩ := Attempt.advance_of_task (advance ▸ task)
  rw [advance] at eq
  subst eq
  rw [again] at state
  rcases state with ⟨-, unresolved, ledger⟩ | ⟨closing, -, -⟩
  · refine .held (e := e) rfl ?_ (by simpa using unresolved) rfl ?_ ?_
    · simpa [Seat.Begun] using begun
    · rw [none_, List.perm_singleton] at kept
      exact kept
    · rw [log_note]
      exact ledger.handover _ _
  · cases closing

/-- The caller of a call is dropped by the last who had it. -/
theorem abandon {u : View σ} (seat : u.seat = some s) (begun : s.Begun)
    (unresolved : s.cell.resolved = false) (attempts : u.attempts = []) (tasks : u.tasks = [])
    (ledger : Ledger u.log false []) (now : Instant) : Custody (u.abandon now) := by
  simp only [View.abandon, seat, Seat.abandon_of_unresolved unresolved]
  refine .resolved rfl begun rfl (.inl attempts) tasks ?_
  rw [log_note]
  exact ledger.bring

/-- A step of an attempt that hands over a task, to a timer that is closed. -/
theorem lose (h : Custody v) {client : Client σ} {cancelled : Bool} {now : Instant}
    {way : Handover} {pre post : List Attempt} {r : Advance σ} {delay : Duration} {c : Caller}
    (seat : v.seat = some s) (attempts : v.attempts = pre ++ a :: post)
    (advance : a.advance client cancelled now way s = r) (task : r.task = some (delay, c)) :
    Custody (({ v with
      seat := some r.seat
      attempts := pre ++ r.attempt.toList ++ post }.note now r.events).abandon now) := by
  obtain ⟨rfl, rfl, tasks, begun, state⟩ := h.of_attempts seat attempts
  obtain ⟨-, -, again, eq⟩ := Attempt.advance_of_task (advance ▸ task)
  rw [advance] at eq
  subst eq
  rw [again] at state
  rcases state with ⟨-, unresolved, ledger⟩ | ⟨closing, -, -⟩
  · refine .abandon (s := s.leave a.onWorker now) ?_ ?_ ?_ ?_ ?_ ?_ now
    · rfl
    · simpa [Seat.Begun] using begun
    · simpa using unresolved
    · rfl
    · exact tasks
    · rw [log_note]
      exact ledger.handover _ _
  · cases closing

/-- A task that is kept is dropped. -/
theorem discard (h : Custody v) {pre post : List (Entry Caller)}
    (tasks : v.tasks = pre ++ e :: post) (now : Instant) :
    Custody ({ v with tasks := pre ++ post }.abandon now) := by
  obtain ⟨rfl, rfl, attempts, s, seat, begun, unresolved, ledger⟩ := h.of_tasks tasks
  exact .abandon (u := { v with tasks := [] }) seat begun unresolved attempts rfl ledger now

/-- Every step of a call preserves the custody of its caller. -/
theorem step (h : Custody v) {client : Client σ} {before after : Tokens} {now : Instant}
    {free : Prop} {i : Nat} (step : View.Step client before after now free i v v') :
    Custody v' := by
  cases step with
  | refuse seat idle blank =>
    obtain ⟨unresolved, attempts, tasks, ledger⟩ := h.of_idle seat idle
    exact .idle rfl (by simp [Seat.Begun, blank]) unresolved attempts tasks ledger
  | @start s seat idle credential =>
    obtain ⟨unresolved, attempts, tasks, ledger⟩ := h.of_idle seat idle
    refine .running (a := { caller := s.caller i }) rfl ⟨rfl, credential⟩ unresolved ?_ rfl tasks
      ledger
    rw [attempts]
    rfl
  | go seat attempts _ advance task _ => exact h.go seat attempts advance task
  | hand seat attempts advance task kept => exact h.hand seat attempts advance task kept
  | lose seat attempts _ advance task => exact h.lose seat attempts advance task
  | @take e _ _ tasks _ =>
    obtain ⟨rfl, rfl, attempts, s, seat, begun, unresolved, ledger⟩ := h.of_tasks tasks
    refine .running (a := { caller := e.task, onWorker := true }) seat begun unresolved ?_ rfl rfl
      ledger
    rw [attempts]
    rfl
  | discard tasks _ => exact h.discard tasks now
  | poll seat waits pending =>
    refine h.of_seat seat rfl rfl ?_
    exact ResultCell.resolved_round _ _

end Custody

end View

namespace Crowd

variable {w w' : Crowd σ} {client : Client σ}

/-- Nothing has happened in a crowd yet. -/
structure Fresh (w : Crowd σ) : Prop where
  seats : ∀ s ∈ w.seats, s.started = false ∧ s.cell.resolved = false
  attempts : w.attempts = []
  queue : w.timer.queue = []
  happenings : w.happenings = []

theorem fresh_gather (workers : Nat) (calls : List (Order × σ)) : (gather workers calls).Fresh where
  seats := by
    intro s hs
    simp only [gather, List.mem_iff_getElem, List.getElem_zipWith] at hs
    obtain ⟨_, _, rfl⟩ := hs
    exact ⟨rfl, rfl⟩
  attempts := rfl
  queue := rfl
  happenings := rfl

theorem Fresh.custody (fresh : w.Fresh) (i : Nat) : (w.view i).Custody := by
  have attempts : (w.view i).attempts = [] := by simp [view, fresh.attempts]
  have tasks : (w.view i).tasks = [] := by simp [view, fresh.queue]
  cases hs : w.seats[i]? with
  | none => exact .absent hs attempts tasks
  | some s =>
    obtain ⟨unstarted, unresolved⟩ := fresh.seats s (List.mem_of_getElem? hs)
    refine .idle hs ?_ unresolved attempts tasks ?_
    · simp [Seat.Begun, unstarted]
    · have silent : (w.view i).log = [] := by simp [View.log, view, eventsOf, fresh.happenings]
      rw [silent]
      exact ⟨rfl, rfl⟩

/-- Every move preserves the custody of all callers. -/
theorem custody_of_move {m : Move} (h : w.move client m = some w')
    (c : ∀ i, (w.view i).Custody) (i : Nat) : (w'.view i).Custody := by
  rcases view_move h i with same | step
  · rw [same]
    exact c i
  · exact (c i).step step

/-- Every run preserves the custody of all callers. -/
theorem custody_of_run {moves : List Move} (h : w.run client moves = some w')
    (c : ∀ i, (w.view i).Custody) (i : Nat) : (w'.view i).Custody := by
  induction moves generalizing w with
  | nil =>
    cases h
    exact c i
  | cons m rest ih =>
    obtain ⟨w₁, first, later⟩ := run_cons_eq_some h
    exact ih later (custody_of_move first c)

/-- Linear ownership. In every state that a crowd reaches, whatever its schedulers do and whenever
tokens are set, a call that was started is in one of three situations, which exclude each other: one
attempt of it goes on that has not brought a result yet, or one task of it is kept, or its cell is
resolved. A result is brought once, and then it is stored; it was brought if no attempt and no task
is left to do so. Requests and answers take turns. -/
theorem run_custody (client : Client σ) (fresh : w.Fresh) {moves : List Move}
    (h : w.run client moves = some w') {i : Nat} {s : Seat σ} (hs : w'.seats[i]? = some s) :
    let v := w'.view i
    let results := v.log.filterMap Event.stored?
    (s.Begun →
      (∃ a, v.attempts = [a] ∧ a.stage.pending = true ∧ v.tasks = [] ∧
        s.cell.resolved = false ∧ results = []) ∨
      (∃ e, v.attempts = [] ∧ v.tasks = [e] ∧ s.cell.resolved = false ∧ results = []) ∨
      ((v.attempts = [] ∨ ∃ a, v.attempts = [a] ∧ a.stage.pending = false) ∧ v.tasks = [] ∧
        s.cell.resolved = true ∧ results = [true])) ∧
    (¬ s.Begun → v.attempts = [] ∧ v.tasks = [] ∧ s.cell.resolved = false ∧ results = []) ∧
    v.attempts.length ≤ 1 ∧
    v.log.foldl Event.turn (some false) = some (v.attempts.any (·.stage.exchanging)) := by
  intro v results
  have seat_eq : v.seat = some s := hs
  cases custody_of_run h fresh.custody i with
  | absent seat =>
    rw [seat] at seat_eq
    cases seat_eq
  | idle seat idle unresolved attempts tasks ledger =>
    obtain rfl := Option.some.inj (seat_eq.symm.trans seat)
    refine ⟨fun begun => absurd begun idle,
      fun _ => ⟨attempts, tasks, unresolved, ledger.results⟩, ?_, ?_⟩
    · simp [v, attempts]
    · simp [v, ledger.turns, attempts]
  | running seat begun unresolved attempts pending tasks ledger =>
    obtain rfl := Option.some.inj (seat_eq.symm.trans seat)
    refine ⟨fun _ => .inl ⟨_, attempts, pending, tasks, unresolved, ledger.results⟩,
      absurd begun, ?_, ?_⟩
    · simp [v, attempts]
    · simp [v, ledger.turns, attempts]
  | held seat begun unresolved attempts tasks ledger =>
    obtain rfl := Option.some.inj (seat_eq.symm.trans seat)
    refine ⟨fun _ => .inr (.inl ⟨_, attempts, tasks, unresolved, ledger.results⟩),
      absurd begun, ?_, ?_⟩
    · simp [v, attempts]
    · simp [v, ledger.turns, attempts]
  | resolved seat begun set attempts tasks ledger =>
    obtain rfl := Option.some.inj (seat_eq.symm.trans seat)
    refine ⟨fun _ => .inr (.inr ⟨attempts, tasks, set, ledger.results⟩), absurd begun, ?_, ?_⟩
    · rcases attempts with attempts | ⟨a, attempts, -⟩ <;> simp [v, attempts]
    · rcases attempts with attempts | ⟨a, attempts, closing⟩
      · simp [v, ledger.turns, attempts]
      · simp [v, ledger.turns, attempts, Stage.exchanging_of_pending closing]

/-- A call whose token is set while its task is kept; the task is run after the thread gave up. Its
cell is resolved, once. -/
theorem run_custody_cancelled :
    let busy : Reply := ⟨.ok ⟨503, [], ""⟩, false, []⟩
    let client : Client Nat := Client.ofReplies fun _ => busy
    let order : Order := ⟨fun _ => .new .get "http://host/", "Bearer t", {}⟩
    let moves : List Move := [.start 0, .advance 0 .keep, .advance 0 .keep, .advance 0 .keep,
      .cancel 0, .poll 0, .run 0, .advance 0 .keep, .advance 0 .keep]
    ∃ w s, (gather 1 [(order, 0)]).run client moves = some w ∧ w.seats[0]? = some s ∧ s.Begun ∧
      s.result.isSome = true ∧ (w.view 0).log.filterMap Event.stored? = [true] := by
  intro busy client order moves
  have outcome : ((gather 1 [(order, 0)]).run client moves).bind (fun w =>
      (w.seats[0]?).map fun s => (s.started, Text.isAllBlank s.order.authorization, s.result.isSome,
        (w.view 0).attempts.any (·.stage.pending), (w.view 0).tasks.length)) =
      some (true, false, true, false, 0) := by
    decide +kernel
  simp only [Option.bind_eq_some_iff, Option.map_eq_some_iff, Prod.mk.injEq] at outcome
  obtain ⟨w, run, s, seat, started, credential, returned, closing, untasked⟩ := outcome
  refine ⟨w, s, run, seat, ⟨started, credential⟩, returned, ?_⟩
  rcases (run_custody client (fresh_gather 1 [(order, 0)]) run seat).1 ⟨started, credential⟩ with
    ⟨_, one, pending, -⟩ | ⟨_, -, task, -⟩ | ⟨-, -, -, results⟩
  · simp [one, pending] at closing
  · simp [task] at untasked
  · exact results

end Crowd

end WebCall.Call
