import WebCall.Proofs.Scheduler.Accounts

/-!
# The order in which tasks start

The tasks of a timer start in the order of their due instants, and those due at one instant in the
order in which they came; none starts before its delay has passed. This holds whatever comes in and
whatever is taken between two starts.

The queue of a timer is a list that is kept in order. A heap that gives out its greatest entry, for
a comparison in which the later entry is the smaller, would give out the same entries: their numbers
differ, so no two entries compare as equal.

## Main definitions

* `Entry.rank`: the comparison of such a heap.
* `Timer.Ordered`: the queue is in order. Every move preserves this.
* `Crew.Behind`: of two tasks that were kept together, one does not start before the other.
-/
namespace WebCall

deriving instance DecidableEq for Entry, Timer, Crew

variable {α : Type}

/-! ## Entries -/

namespace Entry

variable {a b x : Entry α}

theorem precedes_iff : a.precedes b = true ↔ a.due < b.due ∨ (a.due = b.due ∧ a.seq < b.seq) := by
  simp [precedes]

theorem precedes_trans (h : a.precedes b = true) (h' : b.precedes x = true) :
    a.precedes x = true := by
  rw [precedes_iff] at h h' ⊢
  grind

/-- No two entries leave the queue each before the other. -/
theorem precedes_asymm (h : a.precedes b = true) : b.precedes a = false := by
  rw [precedes_iff] at h
  rw [← Bool.not_eq_true, precedes_iff]
  grind

/-- Of two entries with different numbers one leaves the queue before the other. -/
theorem precedes_of_not_precedes (unlike : a.seq ≠ b.seq) (h : a.precedes b = false) :
    b.precedes a = true := by
  rw [← Bool.not_eq_true, precedes_iff] at h
  rw [precedes_iff]
  grind

/-- The comparison for a heap that gives out its greatest entry: the entry that is due later is the
smaller, and so is the one that came later when both are due at one instant. -/
def rank (a b : Entry α) : Ordering := (compare b.due a.due).then (compare b.seq a.seq)

/-- An entry is the smaller of two when the other one leaves the queue first. -/
theorem rank_eq_lt_iff : a.rank b = .lt ↔ b.precedes a = true := by
  rw [rank, Ordering.then_eq_lt, Nat.compare_eq_lt, Nat.compare_eq_eq, Nat.compare_eq_lt,
    precedes_iff]

end Entry

/-! ## Queues -/

namespace Timer

variable {t t' : Timer α} {e : Entry α}

theorem mem_insert_iff {x : Entry α} {queue : List (Entry α)} :
    x ∈ insert e queue ↔ x = e ∨ x ∈ queue := by
  rw [(insert_perm e queue).mem_iff, List.mem_cons]

/-- An entry with a new number finds a place in which the queue stays in order. -/
theorem pairwise_insert {queue : List (Entry α)} (unlike : ∀ x ∈ queue, x.seq ≠ e.seq)
    (sorted : queue.Pairwise fun a b => a.precedes b = true) :
    (insert e queue).Pairwise fun a b => a.precedes b = true := by
  induction queue with
  | nil => exact List.pairwise_singleton _ _
  | cons x xs ih =>
    obtain ⟨first, rest⟩ := List.pairwise_cons.1 sorted
    rw [insert]
    by_cases h : e.precedes x = true
    · rw [if_pos h]
      refine List.pairwise_cons.2 ⟨?_, sorted⟩
      intro y hy
      rcases List.mem_cons.1 hy with rfl | hy
      · exact h
      · exact Entry.precedes_trans h (first y hy)
    · rw [if_neg h]
      have others : ∀ y ∈ xs, y.seq ≠ e.seq := fun y hy => unlike y (List.mem_cons_of_mem _ hy)
      have after : x.precedes e = true :=
        Entry.precedes_of_not_precedes (unlike x List.mem_cons_self).symm (by simpa using h)
      refine List.pairwise_cons.2 ⟨?_, ih others rest⟩
      intro y hy
      rcases mem_insert_iff.1 hy with rfl | hy
      · exact after
      · exact first y hy

/-- The queue is in the order in which its tasks leave it; their numbers were given out, each of
them once. -/
structure Ordered (t : Timer α) : Prop where
  /-- Each entry leaves before all that follow it. -/
  sorted : t.queue.Pairwise fun a b => a.precedes b = true
  /-- No entry has a number that is still to be given out. -/
  given : ∀ e ∈ t.queue, e.seq < t.nextSeq
  /-- No two entries have one number. -/
  numbers : (t.queue.map Entry.seq).Nodup

namespace Ordered

theorem empty : Ordered ({} : Timer α) := ⟨.nil, by simp, .nil⟩

/-- A number tells which entry it is. -/
theorem eq_of_seq_eq (h : t.Ordered) {a b : Entry α} (ha : a ∈ t.queue) (hb : b ∈ t.queue)
    (same : a.seq = b.seq) : a = b :=
  List.inj_on_of_nodup_map h.numbers ha hb same

/-- The first entry leaves before all others. -/
theorem precedes_of_mem (h : t.Ordered) {rest : List (Entry α)} (queue : t.queue = e :: rest)
    {x : Entry α} (hx : x ∈ rest) : e.precedes x = true := by
  have sorted := h.sorted
  rw [queue] at sorted
  exact (List.pairwise_cons.1 sorted).1 x hx

/-- The first entry is the one that a heap with the same entries gives out. -/
theorem eq_of_greatest (h : t.Ordered) {rest : List (Entry α)} (queue : t.queue = e :: rest)
    {g : Entry α} (hg : g ∈ t.queue) (greatest : ∀ x ∈ t.queue, g.rank x ≠ .lt) : g = e := by
  rw [queue] at hg
  rcases List.mem_cons.1 hg with same | later
  · exact same
  · have first : e ∈ t.queue := by simp [queue]
    exact absurd (Entry.rank_eq_lt_iff.2 (h.precedes_of_mem queue later)) (greatest e first)

/-- A task is queued. -/
theorem insert (h : t.Ordered) (due : Instant) (task : α) :
    Ordered { t with queue := insert ⟨due, t.nextSeq, task⟩ t.queue, nextSeq := t.nextSeq + 1 } := by
  have unlike : ∀ x ∈ t.queue, x.seq ≠ t.nextSeq := fun x hx => Nat.ne_of_lt (h.given x hx)
  refine ⟨pairwise_insert unlike h.sorted, ?_, ?_⟩
  · intro x hx
    rcases mem_insert_iff.1 hx with rfl | hx
    · exact Nat.lt_succ_self _
    · exact Nat.lt_succ_of_lt (h.given x hx)
  · have perm := (insert_perm ⟨due, t.nextSeq, task⟩ t.queue).map Entry.seq
    rw [perm.nodup_iff, List.map_cons, List.nodup_cons]
    refine ⟨?_, h.numbers⟩
    intro found
    obtain ⟨x, hx, same⟩ := List.mem_map.1 found
    exact unlike x hx same

/-- Tasks leave the queue. -/
theorem sublist (h : t.Ordered) {queue : List (Entry α)} (fewer : queue.Sublist t.queue) (b : Bool) :
    Ordered { t with queue, closed := b } :=
  ⟨h.sorted.sublist fewer, fun e he => h.given e (fewer.mem he), h.numbers.sublist (fewer.map _)⟩

end Ordered

end Timer

namespace Crew

variable {c c' : Crew}

/-! ## Moves -/

/-- What a move does to the queue and to what was started: it leaves both as they are, or a task is
queued under the next number, or all tasks are thrown away, or the first one is started when it is
due. -/
theorem queue_move {m : Move} (h : c.move m = some c') :
    (c'.timer = c.timer ∧ c'.started = c.started) ∨
      (∃ due job, c'.timer = { c.timer with
          queue := Timer.insert ⟨due, c.timer.nextSeq, job⟩ c.timer.queue
          nextSeq := c.timer.nextSeq + 1 } ∧ c'.started = c.started) ∨
      (c'.timer = { c.timer with queue := [], closed := true } ∧ c'.started = c.started) ∨
      (∃ e rest, c.timer.queue = e :: rest ∧ e.due ≤ c.clock ∧
        c'.timer = { c.timer with queue := rest } ∧ c'.started = c.started ++ [e.ticket]) := by
  rcases move_cases h with
    ⟨clock, running, records, rfl⟩ | ⟨running, delay, job, rfl⟩ | ⟨running, rfl⟩ | taken
  · exact .inl ⟨rfl, rfl⟩
  · cases hc : c.timer.closed with
    | false =>
      rw [submit_of_open (by exact hc)]
      exact .inr (.inl ⟨_, _, rfl, rfl⟩)
    | true =>
      rw [submit_of_closed (by exact hc)]
      exact .inl ⟨rfl, rfl⟩
  · exact .inr (.inr (.inl ⟨rfl, rfl⟩))
  · obtain ⟨e, rest, -, queue, due, -, rfl⟩ := take?_eq_some taken
    exact .inr (.inr (.inr ⟨e, rest, queue, due, rfl, rfl⟩))

/-- Every move leaves the queue in order. -/
theorem ordered_move (ordered : c.timer.Ordered) {m : Move} (h : c.move m = some c') :
    c'.timer.Ordered := by
  rcases queue_move h with
    ⟨timer, -⟩ | ⟨due, job, timer, -⟩ | ⟨timer, -⟩ | ⟨e, rest, queue, -, timer, -⟩
  · rw [timer]
    exact ordered
  · rw [timer]
    exact ordered.insert due job
  · rw [timer]
    exact ordered.sublist (List.nil_sublist _) true
  · rw [timer]
    exact ordered.sublist (queue ▸ List.sublist_cons_self e rest) _

/-- A number that was given out is not given out again: the entry that has it after a move had it
before. -/
theorem mem_queue_of_move {m : Move} (h : c.move m = some c') :
    c.timer.nextSeq ≤ c'.timer.nextSeq ∧
      ∀ e ∈ c'.timer.queue, e.seq < c.timer.nextSeq → e ∈ c.timer.queue := by
  rcases queue_move h with
    ⟨timer, -⟩ | ⟨due, job, timer, -⟩ | ⟨timer, -⟩ | ⟨x, rest, queue, -, timer, -⟩
  · rw [timer]
    exact ⟨Nat.le_refl _, fun e he _ => he⟩
  · rw [timer]
    refine ⟨Nat.le_succ _, fun e he given => ?_⟩
    rcases Timer.mem_insert_iff.1 he with rfl | he
    · exact absurd given (Nat.lt_irrefl _)
    · exact he
  · rw [timer]
    exact ⟨Nat.le_refl _, nofun⟩
  · rw [timer, queue]
    exact ⟨Nat.le_refl _, fun e he _ => List.mem_cons_of_mem _ he⟩

/-! ## Two tasks that are kept together -/

/-- A member of a list that was made longer by one is the new one, or it was there before. -/
theorem concat_eq_append_cons {β : Type} {l front back : List β} {x y : β}
    (h : l ++ [x] = front ++ y :: back) :
    (x = y ∧ front = l) ∨ ∃ back', l = front ++ y :: back' := by
  rcases List.eq_nil_or_concat' back with rfl | ⟨back', z, rfl⟩
  · obtain ⟨rfl, last⟩ := List.append_inj' h rfl
    exact .inl ⟨List.singleton_inj.1 last, rfl⟩
  · rw [← List.cons_append, ← List.append_assoc] at h
    exact .inr ⟨back', (List.append_inj' h rfl).1⟩

/-- A task is not started before another one. -/
structure Behind (a b : Entry Job) (c : Crew) : Prop where
  /-- The number of the later task was given out, -/
  given : b.seq < c.timer.nextSeq
  /-- and no other entry has it. -/
  same : ∀ e ∈ c.timer.queue, e.seq = b.seq → e = b
  /-- While the later task is kept, the earlier one is kept or was started. -/
  waits : b ∈ c.timer.queue → a ∈ c.timer.queue ∨ a.ticket ∈ c.started
  /-- When the later task was started, the earlier one was started before. -/
  started : ∀ front back, c.started = front ++ b.ticket :: back → a.ticket ∈ front

namespace Behind

variable {a b : Entry Job}

/-- Both tasks are kept. -/
theorem of_mem (placed : Placed c) (ordered : c.timer.Ordered) (ha : a ∈ c.timer.queue)
    (hb : b ∈ c.timer.queue) : Behind a b c := by
  refine ⟨ordered.given b hb, fun e he => ordered.eq_of_seq_eq he hb, fun _ => .inl ha, ?_⟩
  intro front back started
  -- A task that is kept was not started, for each task is in one place.
  have all : b.ticket ∈ c.handed.zipIdx := by
    refine placed.places.mem_iff.1 (List.mem_append_left _ (List.mem_append_left _ ?_))
    exact List.mem_map_of_mem hb
  have given : b.seq < c.handed.length := by
    obtain ⟨_, inside, _⟩ := List.mem_zipIdx all
    simpa using inside
  have once := placed.count_eq_one given
  have kept : 0 < c.timer.queue.countP (·.seq = b.seq) :=
    List.countP_pos_iff.2 ⟨b, hb, by simp⟩
  have gone : 0 < c.started.countP (·.2 = b.seq) :=
    List.countP_pos_iff.2 ⟨b.ticket, by simp [started], by simp [Entry.ticket]⟩
  omega

/-- Every move preserves the order of two tasks of which one leaves the queue before the other. -/
theorem move (h : Behind a b c) (ordered : c.timer.Ordered) (first : a.precedes b = true)
    {m : Move} (step : c.move m = some c') : Behind a b c' := by
  obtain ⟨later, old⟩ := mem_queue_of_move step
  have given : b.seq < c'.timer.nextSeq := Nat.lt_of_lt_of_le h.given later
  have same : ∀ e ∈ c'.timer.queue, e.seq = b.seq → e = b :=
    fun e he eq => h.same e (old e he (eq ▸ h.given)) eq
  rcases queue_move step with
    ⟨timer, started⟩ | ⟨due, job, timer, started⟩ | ⟨timer, started⟩ |
      ⟨e, rest, queue, -, timer, started⟩
  · refine ⟨given, same, ?_, ?_⟩
    · rw [timer, started]
      exact h.waits
    · rw [started]
      exact h.started
  · refine ⟨given, same, ?_, ?_⟩
    · intro hb
      have before := old b hb h.given
      rw [timer, started]
      exact (h.waits before).imp_left fun ha => Timer.mem_insert_iff.2 (.inr ha)
    · rw [started]
      exact h.started
  · refine ⟨given, same, ?_, ?_⟩
    · rw [timer]
      exact nofun
    · rw [started]
      exact h.started
  · refine ⟨given, same, ?_, ?_⟩
    · intro hb
      rw [started]
      rcases h.waits (old b hb h.given) with ha | ha
      · rw [queue] at ha
        rcases List.mem_cons.1 ha with rfl | ha
        · exact .inr (List.mem_append_right _ (List.mem_singleton_self _))
        · exact .inl (timer ▸ ha)
      · exact .inr (List.mem_append_left _ ha)
    · intro front back split
      rw [started] at split
      rcases concat_eq_append_cons split with ⟨now, rfl⟩ | ⟨back', before⟩
      · -- The task that is started now is the later one of the two.
        have head : e ∈ c.timer.queue := by simp [queue]
        obtain rfl := h.same e head (congrArg Prod.snd now)
        rcases h.waits head with ha | ha
        · rw [queue] at ha
          rcases List.mem_cons.1 ha with rfl | ha
          · rw [Entry.precedes_asymm first] at first
            cases first
          · rw [Entry.precedes_asymm (ordered.precedes_of_mem queue ha)] at first
            cases first
        · exact ha
      · -- The later one was started before.
        exact h.started front back' before

end Behind

/-! ## Runs -/

/-- Every run leaves the queue in order. -/
theorem ordered_run (ordered : c.timer.Ordered) {moves : List Move} (h : c.run moves = some c') :
    c'.timer.Ordered := by
  induction moves generalizing c with
  | nil =>
    cases h
    exact ordered
  | cons m rest ih =>
    obtain ⟨c₁, first, later⟩ := run_cons_eq_some h
    exact ih (ordered_move ordered first) later

/-- No run gives out a number again. -/
theorem mem_queue_of_run {moves : List Move} (h : c.run moves = some c') :
    ∀ e ∈ c'.timer.queue, e.seq < c.timer.nextSeq → e ∈ c.timer.queue := by
  induction moves generalizing c with
  | nil =>
    cases h
    exact fun e he _ => he
  | cons m rest ih =>
    obtain ⟨c₁, first, later⟩ := run_cons_eq_some h
    obtain ⟨more, old⟩ := mem_queue_of_move first
    intro e he given
    exact old e (ih later e he (Nat.lt_of_lt_of_le given more)) given

/-- Every run starts two tasks in the order in which they leave the queue. -/
theorem Behind.run {a b : Entry Job} (h : Behind a b c) (ordered : c.timer.Ordered)
    (first : a.precedes b = true) {moves : List Move} (run : c.run moves = some c') :
    Behind a b c' := by
  induction moves generalizing c with
  | nil =>
    cases run
    exact h
  | cons m rest ih =>
    obtain ⟨c₁, step, later⟩ := run_cons_eq_some run
    exact ih (h.move ordered first step) (ordered_move ordered step) later

/-! ## Delays -/

/-- The delay with which a move hands a task to the timer, if it does. -/
def delay? (c : Crew) : Move → Option Duration
  | .submit delay _ => some delay
  | .go place => match c.running[place]? with
    | some (.hand delay _ _ _) => some delay
    | _ => none
  | .take => none
  | .close => none
  | .pass _ => none

/-- A move with a delay hands a task over. -/
theorem submit_of_delay? {m : Move} {delay : Duration} (hands : c.delay? m = some delay)
    (h : c.move m = some c') : ∃ running job, c' = { c with running }.submit delay job := by
  cases m with
  | submit d job =>
    obtain rfl := Option.some.inj hands
    exact ⟨c.running, job, (Option.some.inj h).symm⟩
  | take => cases hands
  | go place =>
    rw [delay?] at hands
    cases found : c.running[place]? with
    | none => simp [found] at hands
    | some work =>
      cases work with
      | done => simp [found] at hands
      | fail => simp [found] at hands
      | hand d id task rest =>
        simp only [found, Option.some.injEq] at hands
        subst hands
        rw [move, go?, found, Option.map_some, Option.some.injEq] at h
        exact ⟨_, _, h.symm⟩
      | release rest => simp [found] at hands
  | close => cases hands
  | pass moment => cases hands

/-- The entry of a task that is kept under the number it was given when it came. -/
theorem due_of_submitted (placed : Placed c) (ordered : c.timer.Ordered) (running : List Work)
    (delay : Duration) (job : Job) {moves : List Move}
    (h : ({ c with running }.submit delay job).run moves = some c') {e : Entry Job}
    (he : e ∈ c'.timer.queue) (number : e.seq = c.handed.length) :
    e.due = Timer.dueAt Timer.clockLimit c.clock delay := by
  cases hc : c.timer.closed with
  | false =>
    have next := placed.next hc
    have before := mem_queue_of_run h e he
    rw [submit_of_open (by exact hc)] at before
    have kept := before (by simp [next, number])
    rcases Timer.mem_insert_iff.1 kept with rfl | old
    · rfl
    · have given := ordered.given e old
      omega
  | true =>
    rw [submit_of_closed (by exact hc)] at h
    have after := fun closed empty => run_of_closed closed empty h
    rw [(after hc (placed.empty hc)).2.1] at he
    cases he

/-! ## Whole runs -/

/-- Order and delay. In every state that a crew reaches, with whatever tasks and workers, a move
that starts a task starts one that is due; those that stay in the queue are due later, or at the
same instant and came later, so a heap with the same entries would have given out this one. Of two
tasks that are kept at one time, the one that is due first is started first, and the one that came
first if both are due at one instant, whatever happens meanwhile. No task is started before its
delay, or a hundred years if that is less, has passed since it was handed over. -/
theorem run_dueOrder {workers : Nat} {moves : List Move}
    (h : ({ workers } : Crew).run moves = some c) :
    (∀ m c', c.move m = some c' → c'.started = c.started ∨
      ∃ e, c.timer.queue.Perm (e :: c'.timer.queue) ∧ c'.started = c.started ++ [e.ticket] ∧
        e.due ≤ c.clock ∧
        (∀ x ∈ c'.timer.queue, e.due < x.due ∨ (e.due = x.due ∧ e.seq < x.seq)) ∧
        (∀ g ∈ c.timer.queue, (∀ x ∈ c.timer.queue, g.rank x ≠ .lt) → g = e)) ∧
    (∀ a ∈ c.timer.queue, ∀ b ∈ c.timer.queue,
      (a.due < b.due ∨ (a.due = b.due ∧ a.seq < b.seq)) →
      ∀ later c', c.run later = some c' →
        ∀ front back, c'.started = front ++ b.ticket :: back → a.ticket ∈ front) ∧
    (∀ m delay c₁, c.delay? m = some delay → c.move m = some c₁ →
      c.clock + Timer.farFuture.nanos ≤ Timer.clockLimit →
      ∀ later c₂ m' c₃ job, c₁.run later = some c₂ → c₂.move m' = some c₃ →
        c₃.started = c₂.started ++ [(job, c.handed.length)] →
        c.clock + min delay.nanos Timer.farFuture.nanos ≤ c₂.clock) := by
  have fresh : Placed ({ workers } : Crew) := ⟨fun _ => rfl, fun _ => rfl, .nil⟩
  have placed : Placed c := fresh.run h
  have ordered : c.timer.Ordered := ordered_run .empty h
  refine ⟨?_, ?_, ?_⟩
  · intro m c' step
    rcases queue_move step with
      ⟨-, same⟩ | ⟨_, _, -, same⟩ | ⟨-, same⟩ | ⟨e, rest, queue, due, timer, started⟩
    · exact .inl same
    · exact .inl same
    · exact .inl same
    · refine .inr ⟨e, ?_, started, due, ?_, fun g hg => ordered.eq_of_greatest queue hg⟩
      · rw [queue, timer]
      · intro x hx
        rw [timer] at hx
        exact Entry.precedes_iff.1 (ordered.precedes_of_mem queue hx)
  · intro a ha b hb first later c' run
    exact ((Behind.of_mem placed ordered ha hb).run ordered (Entry.precedes_iff.2 first) run).started
  · intro m delay c₁ hands step horizon later c₂ m' c₃ job run step' started
    obtain ⟨running, job', rfl⟩ := submit_of_delay? hands step
    rcases queue_move step' with
      ⟨-, same⟩ | ⟨_, _, -, same⟩ | ⟨-, same⟩ | ⟨e, rest, queue, due, -, started'⟩
    · simp [same] at started
    · simp [same] at started
    · simp [same] at started
    · have ticket : e.ticket = (job, c.handed.length) :=
        List.singleton_inj.1 (List.append_cancel_left (started'.symm.trans started))
      have kept : e ∈ c₂.timer.queue := by simp [queue]
      rw [due_of_submitted placed ordered running delay job' run kept (congrArg Prod.snd ticket)]
        at due
      refine Nat.le_trans (Timer.le_dueAt ?_) due
      exact Nat.le_trans (Nat.add_le_add_left (Nat.min_le_right ..) _) horizon

/-- One worker. Two tasks are due at one instant, a third one is due before them, and it hands over
a fourth that is due before them as well. -/
theorem run_dueOrder_overtaken :
    let late : Entry Job := ⟨80000000, 0, ⟨"late", .done⟩⟩
    let tie : Entry Job := ⟨80000000, 2, ⟨"tie", .done⟩⟩
    let early : Job := ⟨"early", .hand (.ofMillis 10) "next" .done .done⟩
    let moves : List Move := [.submit (.ofMillis 80) late.task, .submit (.ofMillis 10) early,
      .submit (.ofMillis 80) tie.task]
    let later : List Move := [.pass 10000000, .take, .go 0, .go 0, .pass 80000000, .take, .go 0,
      .take, .go 0]
    ∃ c c₁ c₂, ({} : Crew).run moves = some c ∧ c.run later = some c₁ ∧
      c₁.move .take = some c₂ ∧
      c₂.started.map tag = [("early", 1), ("next", 3), ("late", 0), ("tie", 2)] ∧
      late.ticket ∈ c₁.started ∧
      ∃ e, c₁.timer.queue.Perm (e :: c₂.timer.queue) ∧ e.due ≤ c₁.clock := by
  intro late tie early moves later
  let next : Job := ⟨"next", .done⟩
  let kept : Crew := {
    timer := ⟨[⟨10000000, 1, early⟩, late, tie], 3, false⟩
    handed := [late.task, early, tie.task] }
  let before : Crew := {
    timer := ⟨[tie], 4, false⟩
    clock := 80000000
    handed := [late.task, early, tie.task, next]
    started := [(early, 1), (next, 3), late.ticket] }
  let after : Crew := { before with
    timer := ⟨[], 4, false⟩
    running := [.done]
    started := [(early, 1), (next, 3), late.ticket] ++ [tie.ticket] }
  have run : ({} : Crew).run moves = some kept := by decide +kernel
  have run₁ : kept.run later = some before := by decide +kernel
  have whole : ({} : Crew).run (moves ++ later) = some before := by decide +kernel
  have step : before.move .take = some after := by decide +kernel
  have through : kept.run (later ++ [.take]) = some after := by decide +kernel
  obtain ⟨-, order, -⟩ := run_dueOrder run
  obtain ⟨starts, -, -⟩ := run_dueOrder whole
  have first : late.ticket ∈ before.started :=
    order late (by simp [kept]) tie (by simp [kept]) (.inr ⟨rfl, by decide⟩) _ after through _ [] rfl
  rcases starts .take after step with same | ⟨e, perm, -, due, -⟩
  · have longer : after.started.length = before.started.length := congrArg List.length same
    cases longer
  · exact ⟨kept, before, after, run, run₁, step, rfl, first, e, perm, due⟩

end Crew

end WebCall
