import WebCall.Duration

/-!
# Timers

A queue of tasks, each with the instant at which it is due. Tasks leave the queue in the order of
their due instants, and those due at one instant in the order in which they came. Closing a timer
throws away what is queued, and a closed timer takes no more tasks.

Instants are counted in nanoseconds from some fixed moment; the clock can tell those up to a limit.

## Main definitions

* `Timer.dueAt`: when a task is due. There is one equation for each of its outcomes.
* `Timer.schedule`, `Timer.start?`, `Timer.close`: the three ways in which a queue changes.
-/
namespace WebCall

/-- A moment, in nanoseconds. -/
abbrev Instant := Nat

/-- A queued task. -/
structure Entry (α : Type) where
  /-- When the task is due. -/
  due : Instant
  /-- How many tasks came before it. It is assumed that fewer than 2^64 tasks come to a timer, so
  that the number fits 64 bits and never wraps. -/
  seq : Nat
  /-- The task. -/
  task : α
  deriving Repr

/-- Whether an entry leaves the queue before another. -/
def Entry.precedes {α : Type} (a b : Entry α) : Bool :=
  a.due < b.due || (a.due == b.due && a.seq < b.seq)

/-- A queue of tasks; the queue is in the order in which the tasks leave it. -/
structure Timer (α : Type) where
  /-- The entries, the next one first. -/
  queue : List (Entry α) := []
  /-- How many tasks have come; fewer than 2^64, as for `Entry.seq`. -/
  nextSeq : Nat := 0
  /-- Whether the timer takes no more tasks. -/
  closed : Bool := false
  deriving Repr, Inhabited

namespace Timer

variable {α : Type}

/-- The last instant that the clock can tell. -/
def clockLimit : Instant := Nat.pow 2 63 * Duration.perSec - 1

/-- The wait in place of one that the clock cannot tell: a hundred years. -/
def farFuture : Duration := .ofSecs (100 * 365 * 24 * 60 * 60)

/-- The instant after a delay. A delay past the limit of the clock counts as a hundred years, and as
none at all when even that is past the limit. -/
def dueAt (limit now : Instant) (delay : Duration) : Instant :=
  if now + delay.nanos ≤ limit then now + delay.nanos
  else if now + farFuture.nanos ≤ limit then now + farFuture.nanos
  else now

/-- A task whose delay ends within the limit is due at that end. -/
theorem dueAt_of_le {limit now : Instant} {delay : Duration} (told : now + delay.nanos ≤ limit) :
    dueAt limit now delay = now + delay.nanos :=
  if_pos told

/-- A task whose delay ends past the limit is due after a hundred years, if these end within it. -/
theorem dueAt_of_lt {limit now : Instant} {delay : Duration} (past : limit < now + delay.nanos)
    (horizon : now + farFuture.nanos ≤ limit) :
    dueAt limit now delay = now + farFuture.nanos := by
  rw [dueAt, if_neg (Nat.not_le.2 past), if_pos horizon]

/-- A task is due at once when its delay and a hundred years both end past the limit. -/
theorem dueAt_eq_now {limit now : Instant} {delay : Duration} (past : limit < now + delay.nanos)
    (horizon : limit < now + farFuture.nanos) : dueAt limit now delay = now := by
  rw [dueAt, if_neg (Nat.not_le.2 past), if_neg (Nat.not_le.2 horizon)]

/-- A task is not due before its delay has passed, as far as the clock can tell that moment; a delay
beyond a hundred years counts as a hundred years. -/
theorem le_dueAt {limit now : Instant} {delay : Duration}
    (h : now + min delay.nanos farFuture.nanos ≤ limit) :
    now + min delay.nanos farFuture.nanos ≤ dueAt limit now delay := by
  rcases Nat.lt_or_ge limit (now + delay.nanos) with past | told
  · have longer : farFuture.nanos ≤ delay.nanos := by
      refine Nat.le_of_not_le fun shorter => ?_
      rw [Nat.min_eq_left shorter] at h
      exact absurd past (Nat.not_lt.2 h)
    rw [Nat.min_eq_right longer] at h ⊢
    exact Nat.le_of_eq (dueAt_of_lt past h).symm
  · rw [dueAt_of_le told]
    exact Nat.add_le_add_left (Nat.min_le_left ..) now

/-- Puts an entry in its place. -/
def insert (e : Entry α) : List (Entry α) → List (Entry α)
  | [] => [e]
  | x :: xs => if e.precedes x then e :: x :: xs else x :: insert e xs

/-- Nothing is lost and nothing comes in twice. -/
theorem insert_perm (e : Entry α) (queue : List (Entry α)) :
    (insert e queue).Perm (e :: queue) := by
  induction queue with
  | nil => exact List.Perm.refl _
  | cons x xs ih =>
    unfold insert
    split
    · exact List.Perm.refl _
    · exact (ih.cons x).trans (List.Perm.swap e x xs)

/-- The others keep their order. -/
theorem filter_insert_of_neg {p : Entry α → Bool} {e : Entry α} (h : p e = false)
    (queue : List (Entry α)) : (insert e queue).filter p = queue.filter p := by
  induction queue with
  | nil => simp [insert, h]
  | cons x xs ih =>
    unfold insert
    split
    · simp [h]
    · simp only [List.filter_cons, ih]

/-- How many tasks are queued. -/
def pending (t : Timer α) : Nat := t.queue.length

/-- Queues a task. A closed timer does not take it. -/
def schedule (t : Timer α) (limit now : Instant) (delay : Duration) (task : α) :
    Option (Timer α) :=
  if t.closed then none
  else some { t with
    queue := insert ⟨dueAt limit now delay, t.nextSeq, task⟩ t.queue
    nextSeq := t.nextSeq + 1 }

/-- Takes the next task out of the queue if it is due. -/
def start? (t : Timer α) (now : Instant) : Option (Entry α × Timer α) :=
  match t.queue with
  | [] => none
  | e :: rest => if t.closed || now < e.due then none else some (e, { t with queue := rest })

/-- The first task is taken, when it is due and the timer is open. -/
theorem start?_eq_some {t t' : Timer α} {now : Instant} {e : Entry α}
    (h : t.start? now = some (e, t')) :
    t.closed = false ∧ e.due ≤ now ∧ t.queue = e :: t'.queue ∧
      t' = { t with queue := t'.queue } := by
  cases hq : t.queue with
  | nil => simp [start?, hq] at h
  | cons x rest =>
    simp only [start?, hq, Option.ite_none_left_eq_some, Bool.or_eq_true, decide_eq_true_eq,
      not_or, Bool.not_eq_true, Nat.not_lt, Option.some.injEq, Prod.mk.injEq] at h
    obtain ⟨⟨isOpen, due⟩, rfl, rfl⟩ := h
    exact ⟨isOpen, due, rfl, rfl⟩

/-- Takes the task at a place out of the queue, whether it is due or not. -/
def remove (t : Timer α) (place : Nat) : Timer α := { t with queue := t.queue.eraseIdx place }

/-- Closes the timer; the tasks that were queued are given back. -/
def close (t : Timer α) : List (Entry α) × Timer α :=
  (t.queue, { t with queue := [], closed := true })

/-- The instant of the next task. -/
def nextDue? (t : Timer α) : Option Instant := t.queue.head?.map (·.due)

end Timer

end WebCall
