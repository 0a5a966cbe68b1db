import Mathlib.Algebra.Order.BigOperators.Group.Finset
import WebCall.Call.Shared
import WebCall.Proofs.Call.Steps

/-!
# The release of a shared timer

A timer is shut down with its last handle, and the tasks that it keeps have handles on it. So it is
not shut down when those who make calls are done with it, but when its queue is empty besides: a
task that a cancelled call left behind keeps the timer and its workers, up to the moment at which
the task is due. Nothing is ever discarded.

## Main definitions

* `Shared.Sound`: the count of the handles. Every move preserves this.
* `Shared.run_released`: when the timer is shut down.
-/
namespace WebCall.Call

variable {σ : Type}

namespace Crowd

variable {w w' : Crowd σ} {client : Client σ} {m : Move}

/-! ## Callers -/

/-- How many callers there are. -/
def callers (w : Crowd σ) : Nat := w.attempts.length + w.timer.queue.length

theorem length_replace {k : Nat} {a : Attempt} (h : w.attempts[k]? = some a) (x : Option Attempt) :
    (w.replace k x).attempts.length + 1 = w.attempts.length + x.toList.length := by
  have around := congrArg List.length (w.attempts_eq h)
  rw [w.attempts_replace h x]
  simp only [List.length_append, List.length_cons] at around ⊢
  omega

theorem queue_submit_of_open (h : w.timer.closed = false) (delay : Duration) (c : Caller) :
    (w.submit delay c).timer.queue.Perm
      (⟨Timer.dueAt Timer.clockLimit w.clock delay, w.timer.nextSeq, c⟩ :: w.timer.queue) := by
  simp only [submit, Timer.schedule, h]
  exact Timer.insert_perm _ _

/-- A task that is handed over is kept with its caller, unless the timer is closed. -/
theorem callers_submit (w : Crowd σ) (delay : Duration) (c : Caller) :
    (w.submit delay c).callers + (if w.timer.closed then 1 else 0) = w.callers + 1 := by
  cases hc : w.timer.closed with
  | false =>
    have kept := (queue_submit_of_open hc delay c).length_eq
    rw [List.length_cons] at kept
    rw [callers, attempts_submit, kept]
    rfl
  | true =>
    rw [submit_of_closed _ _ _ hc, callers, attempts_abandon, timer_abandon]
    rfl

/-- A step of an attempt keeps its caller, or hands it over, or drops it. -/
theorem callers_advance? {k : Nat} {way : Handover} (h : w.advance? client k way = some w') :
    w'.callers + w.dropped (.advance k way) = w.callers := by
  obtain ⟨a, s, r, ha, -, hr, outcome⟩ := advance?_eq_some h
  have enacted : (w.enact k a.caller r).attempts.length + 1 =
      w.attempts.length + r.attempt.toList.length :=
    (w.act a.caller.cell r.seat r.events).length_replace ha r.attempt
  rcases outcome with ⟨task, rfl⟩ | ⟨delay, rfl, task, rfl⟩
  · have left : r.attempt.toList.length + w.dropped (.advance k way) = 1 := by
      obtain ⟨c, stage, onWorker⟩ := a
      subst hr
      match stage, way with
      | .begun, _ =>
        cases hc : w.tokens.isCancelled c.token <;> simp [dropped, ha, Attempt.advance]
      | .sent, _ | .ended (.resolve _), _ | .ended (.again _), .run | .ended (.again _), .drop
      | .closing, _ => simp [dropped, ha, Attempt.advance]
      | .ended (.again _), .keep => cases task
    simp only [callers, timer_enact]
    omega
  · obtain ⟨-, -, again, eq⟩ := Attempt.advance_of_task (hr ▸ task)
    have gone : r.attempt = none := by rw [← hr, eq]
    have handed := (w.enact k a.caller r).callers_submit delay a.caller.next
    have lost : w.dropped (.advance k .keep) = if w.timer.closed then 1 else 0 := by
      simp [dropped, ha, again]
    rw [gone] at enacted
    rw [timer_enact] at handed
    rw [lost]
    simp only [callers, timer_enact, Option.toList_none, List.length_nil] at enacted handed ⊢
    omega

theorem length_remove {k : Nat} {e : Entry Caller} (h : w.timer.queue[k]? = some e) :
    (w.timer.remove k).queue.length + 1 = w.timer.queue.length := by
  obtain ⟨inside, -⟩ := List.getElem?_eq_some_iff.1 h
  rw [Timer.remove, List.length_eraseIdx_of_lt inside]
  omega

theorem callers_run? {k : Nat} (h : w.run? k = some w') : w'.callers = w.callers := by
  obtain ⟨e, he, rfl⟩ := Option.map_eq_some_iff.1 h
  have fewer := length_remove he
  simp only [callers, begin, List.length_append, List.length_singleton]
  omega

/-- A move makes and drops callers as the count has it. -/
theorem callers_move (h : w.move client m = some w') :
    w'.callers + w.dropped m = w.callers + w.made m := by
  cases m with
  | start call =>
    obtain ⟨s, hs, -, ⟨blank, rfl⟩ | ⟨credential, rfl⟩⟩ := start?_eq_some h
    · simp [callers, dropped, made, hs, blank]
    · simp [callers, dropped, made, hs, credential, begin]
      omega
  | advance attempt way => exact callers_advance? h
  | work => exact callers_run? (run?_of_work? h).1
  | run place => exact callers_run? h
  | drop place =>
    obtain ⟨e, he, rfl⟩ := Option.map_eq_some_iff.1 h
    have fewer := length_remove he
    simp only [callers, attempts_abandon, timer_abandon, dropped, made]
    omega
  | close =>
    cases h
    rfl
  | poll call =>
    obtain ⟨s, -, -, -, rfl⟩ := poll?_eq_some h
    rfl
  | cancel token =>
    cases h
    rfl
  | pass moment =>
    simp only [move, Option.ite_none_right_eq_some, Option.some.injEq] at h
    obtain ⟨-, rfl⟩ := h
    rfl

/-- A task that is kept stays, unless it is due and taken. -/
theorem mem_queue_of_timely (h : w.move client m = some w')
    (timely : m.timely = true ∨ ∃ token, m = .cancel token) {e : Entry Caller}
    (he : e ∈ w.timer.queue) : e ∈ w'.timer.queue ∨ e.due ≤ w'.clock := by
  cases m with
  | start call =>
    obtain ⟨s, -, -, ⟨-, rfl⟩ | ⟨-, rfl⟩⟩ := start?_eq_some h <;> exact .inl he
  | advance attempt way =>
    obtain ⟨a, s, r, -, -, -, ⟨-, rfl⟩ | ⟨delay, -, -, rfl⟩⟩ := advance?_eq_some h
    · exact .inl (by simpa using he)
    · left
      have still : e ∈ (w.enact attempt a.caller r).timer.queue := by simpa using he
      cases hc : (w.enact attempt a.caller r).timer.closed with
      | false =>
        exact (queue_submit_of_open hc delay a.caller.next).mem_iff.2 (List.mem_cons_of_mem _ still)
      | true =>
        rw [submit_of_closed _ _ _ hc, timer_abandon]
        exact still
  | work =>
    obtain ⟨run, ripe⟩ := run?_of_work? h
    obtain ⟨x, hx, rfl⟩ := Option.map_eq_some_iff.1 run
    obtain ⟨rest, queue⟩ : ∃ rest, w.timer.queue = x :: rest := by
      cases hq : w.timer.queue with
      | nil => simp [hq] at hx
      | cons y rest => exact ⟨rest, by simpa [hq] using hx⟩
    rw [queue] at he
    rcases List.mem_cons.1 he with rfl | later
    · exact .inr (ripe e hx)
    · left
      simpa [begin, Timer.remove, queue] using later
  | poll call =>
    obtain ⟨s, -, -, -, rfl⟩ := poll?_eq_some h
    exact .inl he
  | cancel token =>
    cases h
    exact .inl he
  | pass moment =>
    simp only [move, Option.ite_none_right_eq_some, Option.some.injEq] at h
    obtain ⟨-, rfl⟩ := h
    exact .inl he
  | run | drop | close => simp [Move.timely] at timely

/-- How many workers and calls there are. -/
def roll (w : Crowd σ) : Nat × Nat := (w.workers, w.seats.length)

theorem roll_act (w : Crowd σ) (call : Nat) (s : Seat σ) (es : List Event) :
    (w.act call s es).roll = w.roll := by
  simp [roll, act, note]

theorem roll_abandon (w : Crowd σ) (call : Nat) : (w.abandon call).roll = w.roll := by
  rw [abandon]
  split
  · rfl
  · exact w.roll_act ..

theorem roll_submit (w : Crowd σ) (delay : Duration) (c : Caller) :
    (w.submit delay c).roll = w.roll := by
  rw [submit]
  split
  · rfl
  · exact w.roll_abandon _

theorem roll_enact (w : Crowd σ) (k : Nat) (c : Caller) (r : Advance σ) :
    (w.enact k c r).roll = w.roll := by
  have replaced : (w.enact k c r).roll = (w.act c.cell r.seat r.events).roll := by
    rw [enact]
    cases r.attempt <;> rfl
  rw [replaced, roll_act]

/-- No move makes calls or workers. -/
theorem roll_move (h : w.move client m = some w') : w'.roll = w.roll := by
  cases m with
  | start call =>
    obtain ⟨s, -, -, ⟨-, rfl⟩ | ⟨-, rfl⟩⟩ := start?_eq_some h
    · exact w.roll_act ..
    · exact w.roll_act call { s with started := true } []
  | advance attempt way =>
    obtain ⟨a, s, r, -, -, -, ⟨-, rfl⟩ | ⟨delay, -, -, rfl⟩⟩ := advance?_eq_some h
    · exact w.roll_enact ..
    · rw [roll_submit, roll_enact]
  | work =>
    obtain ⟨e, -, rfl⟩ := Option.map_eq_some_iff.1 (run?_of_work? h).1
    rfl
  | run place =>
    obtain ⟨e, -, rfl⟩ := Option.map_eq_some_iff.1 h
    rfl
  | drop place =>
    obtain ⟨e, -, rfl⟩ := Option.map_eq_some_iff.1 h
    exact roll_abandon _ _
  | close =>
    cases h
    rfl
  | poll call =>
    obtain ⟨s, -, -, -, rfl⟩ := poll?_eq_some h
    exact w.roll_act ..
  | cancel token =>
    cases h
    rfl
  | pass moment =>
    simp only [move, Option.ite_none_right_eq_some, Option.some.injEq] at h
    obtain ⟨-, rfl⟩ := h
    rfl

/-- Only a call that is there has attempts and tasks. -/
theorem lt_length_of_custody {i : Nat} (custody : (w.view i).Custody)
    (has : (w.view i).attempts ≠ [] ∨ (w.view i).tasks ≠ []) : i < w.seats.length := by
  cases custody with
  | absent seat attempts tasks => exact absurd has (by simp [attempts, tasks])
  | idle seat | running seat | held seat | resolved seat =>
    exact (List.getElem?_eq_some_iff.1 seat).1

/-- A timer without tasks is shut down by closing it. -/
theorem shutDown_of_queue_eq_nil (w : Crowd σ) (h : w.timer.queue = []) :
    w.shutDown = { w with timer := { w.timer with closed := true } } := by
  simp [shutDown, Timer.close, h]

/-- The workers of a timer that was shut down take no task. -/
theorem work?_of_closed (h : w.timer.closed = true) : w.work? = none := by
  rw [work?]
  split
  · rfl
  · cases hq : w.timer.queue <;> simp [Timer.start?, hq, h]

end Crowd

namespace Shared

variable {s s' : Shared σ} {client : Client σ}

/-! ## The count -/

/-- The handles are those outside and those of the callers, and the timer is open as long as there
is one. -/
structure Sound (s : Shared σ) : Prop where
  count : s.handles = s.outside + s.crowd.callers
  closed : s.crowd.timer.closed = true ↔ s.handles = 0

/-- Without handles there are no tasks. -/
theorem queue_of_count (count : s.handles = s.outside + s.crowd.callers) (gone : s.handles = 0) :
    s.outside = 0 ∧ s.crowd.attempts = [] ∧ s.crowd.timer.queue = [] := by
  rw [gone, Crowd.callers] at count
  refine ⟨by omega, List.length_eq_zero_iff.1 (by omega), List.length_eq_zero_iff.1 (by omega)⟩

theorem Sound.closed_iff (h : s.Sound) : s.crowd.timer.closed = true ↔
    s.outside = 0 ∧ s.crowd.attempts = [] ∧ s.crowd.timer.queue = [] := by
  rw [h.closed]
  refine ⟨queue_of_count h.count, fun ⟨outside, attempts, queue⟩ => ?_⟩
  rw [h.count, outside, Crowd.callers, attempts, queue]
  rfl

/-- The timer is closed when the last handle goes, and nothing else happens then. -/
theorem settle_of_count (count : s.handles = s.outside + s.crowd.callers) :
    (s.handles ≠ 0 ∧ s.settle = s) ∨ (s.handles = 0 ∧ s.settle = { s with
      crowd := { s.crowd with timer := { s.crowd.timer with closed := true } } }) := by
  by_cases gone : s.handles = 0
  · obtain ⟨-, -, queue⟩ := queue_of_count count gone
    rw [settle, if_pos gone, s.crowd.shutDown_of_queue_eq_nil queue]
    exact .inr ⟨gone, rfl⟩
  · rw [settle, if_neg gone]
    exact .inl ⟨gone, rfl⟩

/-- When the last handle goes, nothing but the timer's end comes of it. -/
theorem frame_settle (count : s.handles = s.outside + s.crowd.callers) :
    s.settle.outside = s.outside ∧ s.settle.crowd.workers = s.crowd.workers ∧
      s.settle.crowd.seats = s.crowd.seats ∧ s.settle.crowd.attempts = s.crowd.attempts ∧
      s.settle.crowd.timer.queue = s.crowd.timer.queue ∧ s.settle.crowd.clock = s.crowd.clock ∧
      ∀ i, s.settle.crowd.view i = s.crowd.view i := by
  rcases settle_of_count count with ⟨-, same⟩ | ⟨-, shut⟩
  · rw [same]
    exact ⟨rfl, rfl, rfl, rfl, rfl, rfl, fun _ => rfl⟩
  · rw [shut]
    exact ⟨rfl, rfl, rfl, rfl, rfl, rfl, fun _ => rfl⟩

theorem sound_settle (count : s.handles = s.outside + s.crowd.callers)
    (isOpen : s.handles ≠ 0 → s.crowd.timer.closed = false) : s.settle.Sound := by
  rcases settle_of_count count with ⟨some_, same⟩ | ⟨gone, shut⟩
  · rw [same]
    exact ⟨count, by simp [isOpen some_, some_]⟩
  · rw [shut]
    exact ⟨count, by simp [gone]⟩

/-- What a move requires, and what it makes of the crowd: a handle more or less, or a move of the
crowd; and the count is right before the timer is shut down. -/
theorem move_eq_some (sound : s.Sound) {m : Move} (h : s.move client m = some s') :
    ∃ t : Shared σ, s' = t.settle ∧ t.handles = t.outside + t.crowd.callers ∧
      (t.handles ≠ 0 → t.crowd.timer.closed = false) ∧ (s.handles = 0 → t.handles = 0) ∧
      (t.crowd = s.crowd ∨ ∃ m, (m.timely = true ∨ ∃ token, m = .cancel token) ∧
        s.crowd.move client m = some t.crowd) := by
  have isOpen (some_ : s.handles ≠ 0) : s.crowd.timer.closed = false := by
    rw [← Bool.not_eq_true, sound.closed]
    exact some_
  have count := sound.count
  cases m with
  | share =>
    rw [move, Option.ite_none_left_eq_some, Option.some.injEq] at h
    obtain ⟨held, rfl⟩ := h
    refine ⟨{ s with outside := s.outside + 1, handles := s.handles + 1 }, ?_, ?_, ?_, ?_, .inl rfl⟩
    · rw [settle, if_neg (Nat.succ_ne_zero _)]
    · dsimp only
      omega
    · exact fun _ => isOpen (by omega)
    · intro gone
      omega
  | release =>
    rw [move, Option.ite_none_left_eq_some, Option.some.injEq, not_or] at h
    obtain ⟨⟨held, -⟩, rfl⟩ := h
    refine ⟨_, rfl, ?_, ?_, ?_, .inl rfl⟩
    · dsimp only
      omega
    · exact fun _ => isOpen (by omega)
    · intro gone
      omega
  | crowd m =>
    rw [move, Option.ite_none_right_eq_some, Option.map_eq_some_iff] at h
    obtain ⟨allowed, w, moved, rfl⟩ := h
    have timely : m.timely = true ∨ ∃ token, m = .cancel token := by
      cases m with
      | start => exact .inl rfl
      | cancel token => exact .inr ⟨token, rfl⟩
      | advance | work | run | drop | close | poll | pass => exact .inl allowed
    have callers := Crowd.callers_move moved
    have counted : s.handles + s.crowd.made m - s.crowd.dropped m = s.outside + w.callers := by
      omega
    have unmade (gone : s.handles = 0) : s.crowd.made m = 0 := by
      cases m with
      | start =>
        have outside : s.outside ≠ 0 := by simpa [allows] using allowed
        omega
      | advance | work | run | drop | close | poll | cancel | pass => rfl
    refine ⟨_, rfl, counted, ?_, ?_, .inr ⟨m, timely, moved⟩⟩
    · intro some_
      have held : s.handles ≠ 0 := by
        intro gone
        have := unmade gone
        dsimp only at some_
        omega
      rcases timely with timely | ⟨token, rfl⟩
      · exact ((Crowd.frame_move moved).2.2 timely).trans (isOpen held)
      · cases moved
        exact isOpen held
    · intro gone
      have := unmade gone
      dsimp only
      omega

theorem sound_move (sound : s.Sound) {m : Move} (h : s.move client m = some s') : s'.Sound := by
  obtain ⟨t, rfl, count, isOpen, -, -⟩ := move_eq_some sound h
  exact sound_settle count isOpen

/-- What a move makes of the crowd, the crowd makes by its own moves. -/
theorem exists_crowd_run_of_move (sound : s.Sound) {m : Move} (h : s.move client m = some s') :
    ∃ moves, s.crowd.run client moves = some s'.crowd := by
  obtain ⟨t, rfl, count, -, -, crowd⟩ := move_eq_some sound h
  have moved : ∃ moves, s.crowd.run client moves = some t.crowd := by
    rcases crowd with same | ⟨m, -, moved⟩
    · exact ⟨[], same ▸ rfl⟩
    · exact ⟨[m], by rw [Crowd.run, List.foldlM_cons, moved]; rfl⟩
  obtain ⟨moves, run⟩ := moved
  rcases settle_of_count count with ⟨-, same⟩ | ⟨-, shut⟩
  · rw [same]
    exact ⟨moves, run⟩
  · rw [shut]
    exact ⟨moves ++ [.close], Crowd.run_append run rfl⟩

/-- A task that is kept stays, unless it is due and taken. -/
theorem mem_queue_of_move (sound : s.Sound) {m : Move} (h : s.move client m = some s')
    {e : Entry Caller} (he : e ∈ s.crowd.timer.queue) :
    e ∈ s'.crowd.timer.queue ∨ e.due ≤ s'.crowd.clock := by
  obtain ⟨t, rfl, count, -, -, crowd⟩ := move_eq_some sound h
  obtain ⟨-, -, -, -, queue, clock, -⟩ := frame_settle count
  rw [queue, clock]
  rcases crowd with same | ⟨m, timely, moved⟩
  · rw [same]
    exact .inl he
  · exact Crowd.mem_queue_of_timely moved timely he

theorem clock_le_of_move (sound : s.Sound) {m : Move} (h : s.move client m = some s') :
    s.crowd.clock ≤ s'.crowd.clock := by
  obtain ⟨t, rfl, count, -, -, crowd⟩ := move_eq_some sound h
  obtain ⟨-, -, -, -, -, clock, -⟩ := frame_settle count
  rw [clock]
  rcases crowd with same | ⟨m, -, moved⟩
  · exact Nat.le_of_eq (congrArg Crowd.clock same).symm
  · exact (Crowd.frame_move moved).1

/-- Handles that are gone stay gone. -/
theorem handles_of_move (sound : s.Sound) {m : Move} (h : s.move client m = some s')
    (gone : s.handles = 0) : s'.handles = 0 := by
  obtain ⟨t, rfl, -, -, still, -⟩ := move_eq_some sound h
  have : t.settle.handles = t.handles := by
    rw [settle]
    split <;> rfl
  rw [this, still gone]

/-! ## Runs -/

theorem run_cons_eq_some {m : Move} {rest : List Move} (h : s.run client (m :: rest) = some s') :
    ∃ s₁, s.move client m = some s₁ ∧ s₁.run client rest = some s' :=
  Option.bind_eq_some_iff.1 h

theorem run_append {moves later : List Move} {s₁ : Shared σ} (first : s.run client moves = some s₁)
    (next : s₁.run client later = some s') : s.run client (moves ++ later) = some s' := by
  rw [run, List.foldlM_append]
  exact Option.bind_eq_some_iff.2 ⟨s₁, first, next⟩

/-- Every run keeps the count, and its crowd makes a run of its own. -/
theorem sound_run (sound : s.Sound) {moves : List Move} (h : s.run client moves = some s') :
    s'.Sound ∧ ∃ moves, s.crowd.run client moves = some s'.crowd := by
  induction moves generalizing s with
  | nil =>
    cases h
    exact ⟨sound, [], rfl⟩
  | cons m rest ih =>
    obtain ⟨s₁, first, later⟩ := run_cons_eq_some h
    obtain ⟨sound', moves', run⟩ := ih (sound_move sound first) later
    obtain ⟨moves, begun⟩ := exists_crowd_run_of_move sound first
    exact ⟨sound', moves ++ moves', Crowd.run_append begun run⟩

/-- The tasks that a run leaves out are due, and a timer that was shut down stays so. -/
theorem kept_of_run (sound : s.Sound) {moves : List Move} (h : s.run client moves = some s') :
    s.crowd.clock ≤ s'.crowd.clock ∧ (s.handles = 0 → s'.handles = 0) ∧
      ∀ e ∈ s.crowd.timer.queue, e ∈ s'.crowd.timer.queue ∨ e.due ≤ s'.crowd.clock := by
  induction moves generalizing s with
  | nil =>
    cases h
    exact ⟨Nat.le_refl _, id, fun e he => .inl he⟩
  | cons m rest ih =>
    obtain ⟨s₁, first, later⟩ := run_cons_eq_some h
    obtain ⟨clock, gone, kept⟩ := ih (sound_move sound first) later
    refine ⟨(clock_le_of_move sound first).trans clock,
      fun none_ => gone (handles_of_move sound first none_), fun e he => ?_⟩
    rcases mem_queue_of_move sound first he with still | due
    · exact kept e still
    · exact .inr (due.trans clock)

/-! ## The end -/

/-- Those who make calls are done with the timer, and there is a worker for what they left. -/
structure Left (s : Shared σ) : Prop where
  sound : s.Sound
  outside : s.outside = 0
  staffed : 0 < s.crowd.workers
  custody : ∀ i, (s.crowd.view i).Custody
  budgeted : ∀ i, ∃ o, (s.crowd.view i).Budgeted o

/-- How many steps are left to all calls. -/
def stepsLeft (s : Shared σ) : Nat :=
  ∑ i ∈ Finset.range s.crowd.seats.length, (s.crowd.view i).stepsLeft

/-- A move of what is left uses up a step, if it is one of a call. -/
theorem Left.exists_move (left : s.Left) {m : Call.Move} (timely : m.timely = true)
    (started : ∀ i, m ≠ .start i) {w : Crowd σ} (moved : s.crowd.move client m = some w) :
    ∃ s', s.move client (.crowd m) = some s' ∧ s'.Left ∧ s'.crowd.timer.queue = w.timer.queue ∧
      s'.crowd.attempts = w.attempts ∧ s'.crowd.clock = w.clock ∧ s'.stepsLeft ≤ s.stepsLeft ∧
      ((∃ i < s.crowd.seats.length, s.crowd.concerns i m = true) → s'.stepsLeft < s.stepsLeft) := by
  have allowed : s.allows m = true := by
    cases m with
    | start i => exact absurd rfl (started i)
    | cancel => rfl
    | advance | work | run | drop | close | poll | pass => exact timely
  let t : Shared σ := { s with
    crowd := w
    handles := s.handles + s.crowd.made m - s.crowd.dropped m }
  have made : s.move client (.crowd m) = some t.settle := by
    rw [move, if_pos allowed, moved]
    rfl
  have counted : t.handles = t.outside + t.crowd.callers := by
    have callers := Crowd.callers_move moved
    have count := left.sound.count
    simp only [t]
    omega
  obtain ⟨outside, workers, seats, attempts, queue, clock, views⟩ := frame_settle counted
  obtain ⟨workers', length⟩ := Prod.mk.inj (Crowd.roll_move moved)
  have uses (i : Nat) : (t.settle.crowd.view i).stepsLeft +
      (if s.crowd.concerns i m then 1 else 0) ≤ (s.crowd.view i).stepsLeft := by
    obtain ⟨o, budgeted⟩ := left.budgeted i
    rw [views]
    refine Crowd.stepsLeft_move moved fun a ha => ?_
    have fits := budgeted.attempts a ha
    rw [fits.order]
    exact fits.inside
  have fewer (i : Nat) : (t.settle.crowd.view i).stepsLeft ≤ (s.crowd.view i).stepsLeft :=
    (Nat.le_add_right ..).trans (uses i)
  refine ⟨t.settle, made, ⟨sound_move left.sound made, outside.trans left.outside, ?_, ?_, ?_⟩,
    queue, attempts, clock, ?_, ?_⟩
  · rw [workers, workers']
    exact left.staffed
  · intro i
    rw [views]
    exact Crowd.custody_of_move moved left.custody i
  · intro i
    obtain ⟨o, budgeted⟩ := left.budgeted i
    rw [views]
    exact ⟨o, Crowd.budgeted_of_move moved left.custody budgeted⟩
  · rw [stepsLeft, stepsLeft, seats, length]
    exact Finset.sum_le_sum fun i _ => fewer i
  · rintro ⟨i, inside, concerned⟩
    rw [stepsLeft, stepsLeft, seats, length]
    refine Finset.sum_lt_sum (fun i _ => fewer i) ⟨i, Finset.mem_range.2 inside, ?_⟩
    have used := uses i
    rw [concerned, if_pos rfl] at used
    exact used

/-- An attempt goes on. -/
theorem Left.exists_fewer_of_attempts (left : s.Left) (client : Client σ)
    (busy : s.crowd.attempts ≠ []) :
    ∃ moves s', s.run client moves = some s' ∧ s'.Left ∧ s'.stepsLeft < s.stepsLeft := by
  obtain ⟨a, others, attempts⟩ := List.exists_cons_of_ne_nil busy
  have free : (s.crowd.advance? client 0 .keep).isSome = true :=
    Crowd.advance?_isSome left.custody (by simp [attempts]) .keep
  obtain ⟨w, moved⟩ := Option.isSome_iff_exists.1 free
  have mine : a ∈ (s.crowd.view a.caller.cell).attempts := by simp [Crowd.view, attempts]
  have inside := Crowd.lt_length_of_custody (left.custody a.caller.cell)
    (.inl (List.ne_nil_of_mem mine))
  obtain ⟨s₁, first, left₁, -, -, -, -, less⟩ :=
    left.exists_move (m := .advance 0 .keep) rfl (by simp) moved
  exact ⟨[.crowd (.advance 0 .keep)], s₁, Option.bind_eq_some_iff.2 ⟨s₁, first, rfl⟩, left₁,
    less ⟨_, inside, by simp [Crowd.concerns, attempts]⟩⟩

/-- A worker takes the first task when it is due. -/
theorem Left.exists_fewer_of_queue (left : s.Left) (client : Client σ)
    (done : s.crowd.attempts = []) (queued : s.crowd.timer.queue ≠ []) :
    ∃ moves s', s.run client moves = some s' ∧ s'.Left ∧ s'.stepsLeft < s.stepsLeft := by
  obtain ⟨e, rest, queue⟩ := List.exists_cons_of_ne_nil queued
  let moment := max s.crowd.clock e.due
  have passed : s.crowd.move client (.pass moment) = some { s.crowd with clock := moment } :=
    if_pos (Nat.le_max_left ..)
  obtain ⟨s₁, first, left₁, queue₁, attempts₁, clock₁, no_more, -⟩ :=
    left.exists_move (m := .pass moment) rfl (by simp) passed
  replace queue₁ : s₁.crowd.timer.queue = e :: rest := queue₁.trans queue
  replace attempts₁ : s₁.crowd.attempts = [] := attempts₁.trans done
  have isOpen : s₁.crowd.timer.closed = false := by
    rw [← Bool.not_eq_true, left₁.sound.closed_iff, queue₁]
    simp
  have taken : ∃ w, s₁.crowd.move client .work = some w := by
    have due : e.due ≤ s₁.crowd.clock := clock₁ ▸ Nat.le_max_right ..
    have free : ¬ s₁.crowd.workers ≤ s₁.crowd.attempts.countP (·.onWorker) := by
      rw [attempts₁]
      exact Nat.not_le.2 left₁.staffed
    simp [Crowd.move, Crowd.work?, free, Timer.start?, queue₁, isOpen, due]
  obtain ⟨w, moved⟩ := taken
  have mine : e ∈ (s₁.crowd.view e.task.cell).tasks := by simp [Crowd.view, queue₁]
  have inside := Crowd.lt_length_of_custody (left₁.custody e.task.cell)
    (.inr (List.ne_nil_of_mem mine))
  obtain ⟨s₂, second, left₂, -, -, -, -, less⟩ :=
    left₁.exists_move (m := .work) rfl (by simp) moved
  have fewer := less ⟨_, inside, by simp [Crowd.concerns, queue₁]⟩
  exact ⟨[.crowd (.pass moment), .crowd .work], s₂,
    Option.bind_eq_some_iff.2 ⟨s₁, first, Option.bind_eq_some_iff.2 ⟨s₂, second, rfl⟩⟩, left₂,
    Nat.lt_of_lt_of_le fewer no_more⟩

/-- What is left comes to an end, and then the timer is shut down. -/
theorem Left.exists_run_closed (left : s.Left) :
    ∃ later s', s.run client later = some s' ∧ s'.crowd.timer.closed = true := by
  induction h : s.stepsLeft using Nat.strong_induction_on generalizing s with
  | _ n ih =>
    subst h
    have go (more : ∃ moves s', s.run client moves = some s' ∧ s'.Left ∧
        s'.stepsLeft < s.stepsLeft) :
        ∃ later s', s.run client later = some s' ∧ s'.crowd.timer.closed = true := by
      obtain ⟨moves, s₁, first, left₁, less⟩ := more
      obtain ⟨later, s', run, closed⟩ := ih _ less left₁ rfl
      exact ⟨moves ++ later, s', run_append first run, closed⟩
    by_cases busy : s.crowd.attempts = []
    · by_cases queued : s.crowd.timer.queue = []
      · exact ⟨[], s, rfl, left.sound.closed_iff.2 ⟨left.outside, busy, queued⟩⟩
      · exact go (left.exists_fewer_of_queue client busy queued)
    · exact go (left.exists_fewer_of_attempts client busy)

/-- The release of the timer. Whatever the calls do and whenever they are cancelled, the handles are
those outside and one for each attempt and each task that is kept. The timer is shut down, and for
good, exactly when there are none of these; its workers take no task then. So a task that is kept
keeps the timer open until the task is due, also after all handles outside are gone, and it is not
discarded; but what is left then comes to an end, and the timer is shut down. -/
theorem run_released (client : Client σ) {w : Crowd σ} (fresh : w.Fresh)
    (isOpen : w.timer.closed = false) {moves : List Move}
    (h : ({ crowd := w } : Shared σ).run client moves = some s) :
    let t := s.crowd.timer
    s.handles = s.outside + s.crowd.attempts.length + t.queue.length ∧
    (t.closed = true ↔ s.outside = 0 ∧ s.crowd.attempts = [] ∧ t.queue = []) ∧
    (t.closed = true → s.crowd.work? = none) ∧
    (∀ later s', s.run client later = some s' →
      (t.closed = true → s'.crowd.timer.closed = true) ∧
      (s'.crowd.timer.closed = true → ∀ e ∈ t.queue, e.due ≤ s'.crowd.clock)) ∧
    (s.outside = 0 → 0 < s.crowd.workers →
      ∃ later s', s.run client later = some s' ∧ s'.crowd.timer.closed = true) := by
  intro t
  have sound₀ : Sound ({ crowd := w } : Shared σ) := by
    refine ⟨?_, by simp [isOpen]⟩
    simp [Crowd.callers, fresh.attempts, fresh.queue]
  obtain ⟨sound, moves', run⟩ := sound_run sound₀ h
  refine ⟨?_, sound.closed_iff, Crowd.work?_of_closed, fun later s' h' => ?_,
    fun outside staffed => ?_⟩
  · rw [sound.count, Crowd.callers, Nat.add_assoc]
  · obtain ⟨-, gone, kept⟩ := kept_of_run sound h'
    obtain ⟨sound', -⟩ := sound_run sound h'
    refine ⟨fun closed => sound'.closed.2 (gone (sound.closed.1 closed)), fun closed e he => ?_⟩
    rcases kept e he with still | due
    · rw [(sound'.closed_iff.1 closed).2.2] at still
      cases still
    · exact due
  · have budgeted (i : Nat) : ∃ o, (s.crowd.view i).Budgeted o := by
      obtain ⟨o, order⟩ := Crowd.exists_order w i
      exact ⟨o, (Crowd.budgeted_of_run run fresh.custody (fresh.budgeted o order)).1⟩
    exact Left.exists_run_closed
      ⟨sound, outside, staffed, Crowd.custody_of_run run fresh.custody, budgeted⟩

/-- A call that is told to wait longer than any clock can tell, and is cancelled while it waits. It
returns, and the last handle outside is let go of. The timer is not shut down: the task of the call
is still there, and will be for a hundred years. -/
theorem run_released_kept :
    let limited : Reply := ⟨.ok ⟨429, [("Retry-After", "18446744073709551615")], ""⟩, false, []⟩
    let client : Client Nat := Client.ofReplies fun _ => limited
    let order : Order := ⟨fun _ => .new .get "http://host/", "Bearer t", {}⟩
    let moves : List Move := [.crowd (.start 0), .crowd (.advance 0 .keep),
      .crowd (.advance 0 .keep), .crowd (.advance 0 .keep), .crowd (.cancel 0), .crowd (.poll 0),
      .release]
    ∃ s, ({ crowd := .gather 1 [(order, 0)] } : Shared Nat).run client moves = some s ∧
      s.outside = 0 ∧ s.crowd.attempts = [] ∧ s.crowd.seats.any Seat.inFlight = false ∧
      s.crowd.timer.closed = false ∧ s.crowd.timer.queue.map (·.due) = [3153600000 * 10 ^ 9] ∧
      s.handles = 1 := by
  intro limited client order moves
  have outcome : (({ crowd := .gather 1 [(order, 0)] } : Shared Nat).run client moves).map
      (fun s => ((s.outside, s.crowd.attempts.length, s.handles), s.crowd.seats.any Seat.inFlight,
        s.crowd.timer.closed, s.crowd.timer.queue.map (·.due))) =
      some ((0, 0, 1), false, false, [3153600000 * 10 ^ 9]) := by
    decide +kernel
  simp only [Option.map_eq_some_iff, Prod.mk.injEq] at outcome
  obtain ⟨s, run, ⟨outside, attempts, handles⟩, flight, closed, queue⟩ := outcome
  exact ⟨s, run, outside, List.length_eq_zero_iff.1 attempts, flight, closed, queue, handles⟩

/-- The same call when the wait is over: its task finds the token set and ends, and by that the last
handle goes. Before the end of the wait the timer cannot be shut down. -/
theorem run_released_later :
    let limited : Reply := ⟨.ok ⟨429, [("Retry-After", "60")], ""⟩, false, []⟩
    let client : Client Nat := Client.ofReplies fun _ => limited
    let order : Order := ⟨fun _ => .new .get "http://host/", "Bearer t", {}⟩
    let moves : List Move := [.crowd (.start 0), .crowd (.advance 0 .keep),
      .crowd (.advance 0 .keep), .crowd (.advance 0 .keep), .crowd (.cancel 0), .crowd (.poll 0),
      .release]
    ∃ s, ({ crowd := .gather 1 [(order, 0)] } : Shared Nat).run client moves = some s ∧
      (∀ later s', s.run client later = some s' → s'.crowd.timer.closed = true →
        60 * 10 ^ 9 ≤ s'.crowd.clock) ∧
      ∃ later s', s.run client later = some s' ∧ s'.crowd.timer.closed = true := by
  intro limited client order moves
  have outcome : (({ crowd := .gather 1 [(order, 0)] } : Shared Nat).run client moves).map
      (fun s => (s.outside, s.crowd.workers, s.crowd.timer.queue.map (·.due))) =
      some (0, 1, [60 * 10 ^ 9]) := by
    decide +kernel
  simp only [Option.map_eq_some_iff, Prod.mk.injEq] at outcome
  obtain ⟨s, run, outside, workers, queue⟩ := outcome
  obtain ⟨-, -, -, kept, ends⟩ :=
    run_released client (Crowd.fresh_gather 1 [(order, 0)]) rfl run
  refine ⟨s, run, fun later s' h' closed => ?_, ends outside (by omega)⟩
  obtain ⟨e, he, due⟩ := List.mem_map.1
    (queue ▸ List.mem_singleton_self _ : 60 * 10 ^ 9 ∈ s.crowd.timer.queue.map (·.due))
  exact due ▸ (kept later s' h').2 closed e he

end Shared

end WebCall.Call
