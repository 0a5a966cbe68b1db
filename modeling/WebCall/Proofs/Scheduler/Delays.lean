import WebCall.Proofs.Scheduler.DueOrder

/-!
# Longer delays

When a task is due, next to one that comes at the same moment or later and has a longer delay. As
long as the clock can tell the end of the longer delay, its task is not due first. A delay whose end
the clock cannot tell counts as a hundred years, and that is less than many delays whose end it can
tell: such a delay is overtaken by a longer one.

## Main definitions

* `Timer.dueAt_le_dueAt`, `Timer.dueAt_le_farFuture_iff`, `Timer.dueAt_le_now_iff`: due instants
  compared, by what the clock can tell about the longer delay.
* `Timer.schedule_longer_delay`: the same for two tasks that timers take.
-/
namespace WebCall.Timer

variable {α : Type} {limit now now' : Instant} {d d' : Duration}

/-! ## Due instants -/

/-- Due instants are in the order of the delays while the clock can tell the end of the longer
one. -/
theorem dueAt_le_dueAt (later : now ≤ now') (longer : d ≤ d') (told : now' + d'.nanos ≤ limit) :
    dueAt limit now d ≤ dueAt limit now' d' := by
  have sum : now + d.nanos ≤ now' + d'.nanos := Nat.add_le_add later longer
  rw [dueAt_of_le told, dueAt_of_le (Nat.le_trans sum told)]
  exact sum

/-- A hundred years from a moment on, a task that came before is due if its own delay was counted as
a hundred years, or ends by then. -/
theorem dueAt_le_farFuture_iff (later : now ≤ now') (horizon : now' + farFuture.nanos ≤ limit) :
    dueAt limit now d ≤ now' + farFuture.nanos ↔
      limit < now + d.nanos ∨ now + d.nanos ≤ now' + farFuture.nanos := by
  have sum : now + farFuture.nanos ≤ now' + farFuture.nanos := Nat.add_le_add_right later _
  rcases Nat.lt_or_ge limit (now + d.nanos) with past | told
  · rw [dueAt_of_lt past (Nat.le_trans sum horizon)]
    exact iff_of_true sum (.inl past)
  · rw [dueAt_of_le told, or_iff_right (Nat.not_lt.2 told)]

/-- At a moment, a task that came at least a hundred years before the limit is due if its delay, or
the hundred years that it counts as, ends by then. -/
theorem dueAt_le_now_iff (horizon : now + farFuture.nanos ≤ limit) :
    dueAt limit now d ≤ now' ↔
      if now + d.nanos ≤ limit then now + d.nanos ≤ now' else now + farFuture.nanos ≤ now' := by
  rw [dueAt, if_pos horizon]
  split <;> rfl

/-! ## Tasks that a timer takes -/

/-- A timer that takes a task has one more entry, with the next number and the task's due instant. -/
theorem queue_of_schedule {t s : Timer α} {x : α} (h : t.schedule limit now d x = some s) :
    ∃ e, s.queue.Perm (e :: t.queue) ∧ e.ticket = (x, t.nextSeq) ∧ e.due = dueAt limit now d := by
  rw [schedule, Option.ite_none_left_eq_some, Option.some.injEq] at h
  obtain ⟨-, rfl⟩ := h
  exact ⟨_, insert_perm _ _, rfl, rfl⟩

/-- Two tasks come at moments `now` and `now'` of which the second is not the earlier one, and the
second task has the longer delay. It is not due first if the clock can tell when its delay ends.
If the clock cannot, it is due after a hundred years; the first task is then due no later if its
delay was counted as a hundred years too, or ends by that time. When even a hundred years end past
the limit the second task is due at once, so the first one has to be due by then. -/
theorem schedule_longer_delay {t t' s s' : Timer α} {x y : α}
    (horizon : now + farFuture.nanos ≤ limit) (later : now ≤ now') (longer : d ≤ d')
    (h : t.schedule limit now d x = some s) (h' : t'.schedule limit now' d' y = some s') :
    ∃ e e', s.queue.Perm (e :: t.queue) ∧ e.ticket = (x, t.nextSeq) ∧
      s'.queue.Perm (e' :: t'.queue) ∧ e'.ticket = (y, t'.nextSeq) ∧
      (now' + d'.nanos ≤ limit → e.due ≤ e'.due) ∧
      (limit < now' + d'.nanos → now' + farFuture.nanos ≤ limit →
        e'.due = now' + farFuture.nanos ∧
          (e.due ≤ e'.due ↔ limit < now + d.nanos ∨ now + d.nanos ≤ now' + farFuture.nanos)) ∧
      (limit < now' + d'.nanos → limit < now' + farFuture.nanos →
        e'.due = now' ∧
          (e.due ≤ e'.due ↔
            if now + d.nanos ≤ limit then now + d.nanos ≤ now'
            else now + farFuture.nanos ≤ now')) := by
  obtain ⟨e, queue, ticket, due⟩ := queue_of_schedule h
  obtain ⟨e', queue', ticket', due'⟩ := queue_of_schedule h'
  refine ⟨e, e', queue, ticket, queue', ticket', ?_, ?_, ?_⟩
  · intro told
    rw [due, due']
    exact dueAt_le_dueAt later longer told
  · -- The longer delay counts as a hundred years.
    intro past horizon'
    rw [due, due', dueAt_of_lt past horizon']
    exact ⟨rfl, dueAt_le_farFuture_iff later horizon'⟩
  · -- It counts as nothing.
    intro past past'
    rw [due, due', dueAt_eq_now past past']
    exact ⟨rfl, dueAt_le_now_iff horizon⟩

/-- The second delay is the longest that whole seconds can give, and it ends past the limit, so its
task is due a hundred years after it came. The first task, with a delay of a hundred years, is due
before that. -/
theorem schedule_longer_delay_century :
    let longest := Duration.ofSecs 18446744073709551615
    let empty : Timer String := {}
    0 + farFuture.nanos ≤ clockLimit ∧ farFuture ≤ longest ∧
    ∃ s s', empty.schedule clockLimit 0 farFuture "first" = some s ∧
      s.schedule clockLimit 1 longest "second" = some s' ∧
      ∃ e e', s.queue.Perm [e] ∧ e.ticket = ("first", 0) ∧
        s'.queue.Perm (e' :: s.queue) ∧ e'.ticket = ("second", 1) ∧
        e'.due = 1 + farFuture.nanos ∧ e.due ≤ e'.due := by
  intro longest empty
  let first : Entry String := ⟨farFuture.nanos, 0, "first"⟩
  let one : Timer String := ⟨[first], 1, false⟩
  let two : Timer String := ⟨[first, ⟨1 + farFuture.nanos, 1, "second"⟩], 2, false⟩
  have horizon : 0 + farFuture.nanos ≤ clockLimit := by decide +kernel
  have longer : farFuture ≤ longest := by decide +kernel
  have taken : empty.schedule clockLimit 0 farFuture "first" = some one := by decide +kernel
  have taken' : one.schedule clockLimit 1 longest "second" = some two := by decide +kernel
  obtain ⟨e, e', queue, ticket, queue', ticket', -, order, -⟩ :=
    schedule_longer_delay horizon (Nat.zero_le 1) longer taken taken'
  obtain ⟨due', order'⟩ := order (by decide +kernel) (by decide +kernel)
  have ends : 0 + farFuture.nanos ≤ 1 + farFuture.nanos := Nat.add_le_add_right (Nat.zero_le 1) _
  exact ⟨horizon, longer, one, two, taken, taken', e, e', queue, ticket, queue', ticket', due',
    order'.2 (.inr ends)⟩

/-- A task with a delay of two hundred years is overtaken by one that comes at the same moment and
has the longest delay that whole seconds can give: the latter is due after a hundred years, and a
worker takes it then. -/
theorem longer_delay_overtakes :
    let long := Duration.ofSecs (200 * 365 * 24 * 60 * 60)
    let longest := Duration.ofSecs 18446744073709551615
    let c : Crew := {
      timer := ⟨[⟨dueAt clockLimit 0 longest, 1, ⟨"longest", .done⟩⟩,
        ⟨dueAt clockLimit 0 long, 0, ⟨"long", .done⟩⟩], 2, false⟩
      clock := farFuture.nanos
      handed := [⟨"long", .done⟩, ⟨"longest", .done⟩] }
    0 + farFuture.nanos ≤ clockLimit ∧ long ≤ longest ∧
      dueAt clockLimit 0 longest < dueAt clockLimit 0 long ∧
      ({} : Crew).run [.submit long ⟨"long", .done⟩, .submit longest ⟨"longest", .done⟩,
        .pass farFuture.nanos] = some c ∧
      c.take?.map (·.started) = some [(⟨"longest", .done⟩, 1)] := by
  decide +kernel

end WebCall.Timer
