import Mathlib.Data.List.InsertIdx
import WebCall.Scheduler.Crew

/-!
# Failures of tasks

A failure ends a task as a return does, and but for a line in the log nobody can tell the two apart.
Making every task of a crew return where it failed is a simulation: it takes moves to moves, and it
keeps what is queued, running, started and discarded.

## Main definitions

* `Crew.calm`: a crew whose tasks return where they fail.
-/
namespace WebCall

/-! ## Timers -/

section Map

variable {α β : Type} (f : α → β)

/-- An entry with another task. -/
def Entry.map (e : Entry α) : Entry β := ⟨e.due, e.seq, f e.task⟩

/-- A timer with other tasks. -/
def Timer.map (t : Timer α) : Timer β := ⟨t.queue.map (Entry.map f), t.nextSeq, t.closed⟩

/-- Tasks have no say in the order of their queue. -/
theorem Timer.map_insert (e : Entry α) (queue : List (Entry α)) :
    (insert e queue).map (Entry.map f) = insert (e.map f) (queue.map (Entry.map f)) := by
  induction queue with
  | nil => rfl
  | cons x xs ih =>
    have same : (e.map f).precedes (x.map f) = e.precedes x := rfl
    rw [List.map_cons, insert, insert, same]
    split
    · rfl
    · rw [List.map_cons, ih]

theorem Timer.schedule_map (t : Timer α) (limit now : Instant) (delay : Duration) (task : α) :
    (t.map f).schedule limit now delay (f task) =
      (t.schedule limit now delay task).map (Timer.map f) := by
  cases hc : t.closed with
  | true => simp [schedule, Timer.map, hc]
  | false =>
    simp only [schedule, Timer.map, hc, Bool.false_eq_true, if_false, Option.map_some]
    rw [map_insert]
    rfl

theorem Timer.start?_map (t : Timer α) (now : Instant) :
    (t.map f).start? now = (t.start? now).map fun r => (r.1.map f, r.2.map f) := by
  cases hq : t.queue with
  | nil => simp [start?, Timer.map, hq]
  | cons e rest =>
    simp only [start?, Timer.map, hq, List.map_cons, Entry.map]
    split <;> rfl

end Map

/-! ## Tasks -/

/-- What is to be done, without failures. -/
def Work.calm : Work → Work
  | done => done
  | fail => done
  | hand delay id task rest => hand delay id task.calm rest.calm
  | release rest => release rest.calm

/-- A task without failures. -/
def Job.calm (j : Job) : Job := { j with work := j.work.calm }

namespace Crew

/-- A move without failures. -/
def Move.calm : Move → Move
  | .submit delay job => .submit delay job.calm
  | .take => .take
  | .go place => .go place
  | .close => .close
  | .pass moment => .pass moment

/-- A crew without failures. -/
def calm (c : Crew) : Crew where
  timer := c.timer.map Job.calm
  workers := c.workers
  clock := c.clock
  running := c.running.map Work.calm
  handed := c.handed.map Job.calm
  started := c.started.map (Prod.map Job.calm id)
  discarded := c.discarded.map (Prod.map Job.calm id)
  records := c.records.filter (· ≠ failure)

/-! ## Moves -/

variable (c : Crew)

theorem calm_submit (delay : Duration) (job : Job) :
    (c.submit delay job).calm = c.calm.submit delay job.calm := by
  have taken := Timer.schedule_map Job.calm c.timer Timer.clockLimit c.clock delay job
  cases h : c.timer.schedule Timer.clockLimit c.clock delay job with
  | none =>
    rw [h, Option.map_none] at taken
    simp [submit, calm, h, taken, refusal, failure]
  | some timer =>
    rw [h, Option.map_some] at taken
    simp [submit, calm, h, taken]

theorem calm_close : c.close.calm = c.calm.close := by
  simp [close, Timer.close, calm, Timer.map, Entry.ticket, Entry.map, Function.comp_def]

theorem take?_calm : c.calm.take? = c.take?.map calm := by
  have taken := Timer.start?_map Job.calm c.timer c.clock
  simp only [take?, calm, List.length_map, taken, Option.map_map]
  split
  · rfl
  · cases c.timer.start? c.clock with
    | none => rfl
    | some r => simp [calm, Entry.ticket, Entry.map, Job.calm]

theorem go?_calm (place : Nat) : c.calm.go? place = (c.go? place).map calm := by
  cases found : c.running[place]? with
  | none => simp [go?, calm, found]
  | some work =>
    have found' : c.calm.running[place]? = some work.calm := by simp [calm, found]
    have put (rest : Work) : { c.calm with running := c.calm.running.set place rest.calm } =
        calm { c with running := c.running.set place rest } := by
      simp [calm, List.map_set]
    rw [go?, go?, found, found', Option.map_some, Option.map_some, Option.map_some]
    cases work with
    | done => simp [Work.calm, calm, List.eraseIdx_map]
    | fail => simp [Work.calm, calm, List.eraseIdx_map]
    | hand delay id task rest =>
      simp only [Work.calm, put, calm_submit]
      rfl
    | release rest => simp only [Work.calm, put, calm_close]

/-- A move without failures does to a crew without failures what it does with them. -/
theorem move_calm (m : Move) : c.calm.move m.calm = (c.move m).map calm := by
  cases m with
  | submit delay job => simp [move, Move.calm, calm_submit]
  | take => exact c.take?_calm
  | go place => exact c.go?_calm place
  | close => simp [move, Move.calm, calm_close]
  | pass moment =>
    by_cases later : c.clock ≤ moment <;> simp [move, Move.calm, calm, later]

/-- A run without failures leaves a crew without failures as the same run with them would. -/
theorem run_calm (moves : List Move) :
    c.calm.run (moves.map Move.calm) = (c.run moves).map calm := by
  induction moves generalizing c with
  | nil => rfl
  | cons m rest ih =>
    simp only [run, List.map_cons, List.foldlM_cons, move_calm, Option.bind_eq_bind] at ih ⊢
    cases c.move m with
    | none => rfl
    | some c₁ => exact ih c₁

/-- Runs that differ in failures alone can both be made, and they end alike. -/
theorem exists_run_of_map_calm_eq {c c' : Crew} {moves moves' : List Move}
    (h : c.run moves = some c') (same : moves'.map Move.calm = moves.map Move.calm) :
    ∃ c'', c.run moves' = some c'' ∧ c''.calm = c'.calm := by
  have ends := c.run_calm moves'
  rw [same, run_calm, h, Option.map_some, eq_comm, Option.map_eq_some_iff] at ends
  exact ends

end Crew

end WebCall
