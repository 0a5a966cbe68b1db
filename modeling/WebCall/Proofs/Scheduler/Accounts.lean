import Mathlib.Data.List.Nodup
import WebCall.Proofs.Scheduler.Failures

/-!
# Accounts of a crew

What becomes of the tasks that a crew is handed, from outside and by its own tasks, in any order and
over any number of workers. Each of them is in one place at any time: it is kept, or it was started,
or it was discarded. Once the timer is closed nothing is kept and nothing is started any more.

The tasks that a task would hand over have names before they are handed over, so the names tell what
is lost with a task that is discarded.

## Main definitions

* `Crew.Placed`: each task is in one place. Every move preserves this.
* `Crew.names`: the names of all tasks, by what becomes of them. A move adds those that come in from
  outside.
-/
namespace WebCall.Crew

variable {c c' : Crew}

/-! ## Moves -/

theorem submit_of_open (h : c.timer.closed = false) (delay : Duration) (job : Job) :
    c.submit delay job = { c with
      timer := { c.timer with
        queue := Timer.insert ⟨Timer.dueAt Timer.clockLimit c.clock delay, c.timer.nextSeq, job⟩
          c.timer.queue
        nextSeq := c.timer.nextSeq + 1 }
      handed := c.handed ++ [job] } := by
  simp [submit, Timer.schedule, h]

theorem submit_of_closed (h : c.timer.closed = true) (delay : Duration) (job : Job) :
    c.submit delay job = { c with
      handed := c.handed ++ [job]
      discarded := c.discarded ++ [(job, c.handed.length)]
      records := c.records ++ [refusal] } := by
  simp [submit, Timer.schedule, h]

/-- What a worker does when it takes a task. -/
theorem take?_eq_some (h : c.take? = some c') :
    ∃ e rest, c.timer.closed = false ∧ c.timer.queue = e :: rest ∧ e.due ≤ c.clock ∧
      c.running.length < c.workers ∧ c' = { c with
        timer := { c.timer with queue := rest }
        running := c.running ++ [e.task.work]
        started := c.started ++ [e.ticket] } := by
  rw [take?, Option.ite_none_left_eq_some, Option.map_eq_some_iff] at h
  obtain ⟨free, ⟨e, t⟩, start, rfl⟩ := h
  obtain ⟨isOpen, due, queue, timer⟩ := Timer.start?_eq_some start
  refine ⟨e, t.queue, isOpen, queue, due, Nat.lt_of_not_le free, ?_⟩
  rw [← timer]

/-- What a task does when it goes on by a step. -/
theorem go?_eq_some {place : Nat} (h : c.go? place = some c') :
    ∃ pre work post, c.running = pre ++ work :: post ∧
      ((work = .done ∧ c' = { c with running := pre ++ post }) ∨
        (work = .fail ∧ c' = { c with
          running := pre ++ post
          records := c.records ++ [failure] }) ∨
        (∃ delay id task rest, work = .hand delay id task rest ∧
          c' = { c with running := pre ++ rest :: post }.submit delay ⟨id, task⟩) ∨
        (∃ rest, work = .release rest ∧
          c' = { c with running := pre ++ rest :: post }.close)) := by
  obtain ⟨work, found, rfl⟩ := Option.map_eq_some_iff.1 h
  obtain ⟨inside, rfl⟩ := List.getElem?_eq_some_iff.1 found
  refine ⟨c.running.take place, c.running[place], c.running.drop (place + 1), ?_, ?_⟩
  · rw [List.getElem_cons_drop, List.take_append_drop]
  have erased := List.eraseIdx_eq_take_drop_succ c.running place
  have put (rest : Work) : c.running.set place rest =
      c.running.take place ++ rest :: c.running.drop (place + 1) := by
    rw [List.set_eq_take_append_cons_drop, if_pos inside]
  cases hw : c.running[place] with
  | done => exact .inl ⟨rfl, by rw [erased]⟩
  | fail => exact .inr (.inl ⟨rfl, by rw [erased]⟩)
  | hand delay id task rest => exact .inr (.inr (.inl ⟨_, _, _, _, rfl, by simp only [put]⟩))
  | release rest => exact .inr (.inr (.inr ⟨_, rfl, by simp only [put]⟩))

/-- What time does. -/
theorem pass_eq_some {moment : Instant} (h : c.move (.pass moment) = some c') :
    c.clock ≤ moment ∧ c' = { c with clock := moment } := by
  simp only [move, Option.ite_none_right_eq_some, Option.some.injEq] at h
  exact ⟨h.1, h.2.symm⟩

/-- What a move does, apart from what is running: nothing, or a task is handed over, or the timer is
closed, or a worker takes a task. -/
theorem move_cases {m : Move} (h : c.move m = some c') :
    (∃ clock running records, c' = { c with clock, running, records }) ∨
      (∃ running delay job, c' = { c with running }.submit delay job) ∨
      (∃ running, c' = { c with running }.close) ∨ c.take? = some c' := by
  cases m with
  | submit delay job => exact .inr (.inl ⟨c.running, delay, job, (Option.some.inj h).symm⟩)
  | take => exact .inr (.inr (.inr h))
  | go place =>
    obtain ⟨pre, work, post, -, outcome⟩ := go?_eq_some h
    rcases outcome with ⟨-, eq⟩ | ⟨-, eq⟩ | ⟨_, _, _, _, -, eq⟩ | ⟨_, -, eq⟩
    · exact .inl ⟨_, _, _, eq⟩
    · exact .inl ⟨_, _, _, eq⟩
    · exact .inr (.inl ⟨_, _, _, eq⟩)
    · exact .inr (.inr (.inl ⟨_, eq⟩))
  | close => exact .inr (.inr (.inl ⟨c.running, (Option.some.inj h).symm⟩))
  | pass moment => exact .inl ⟨_, _, _, (pass_eq_some h).2⟩

/-! ## One place for every task -/

/-- The tasks that are kept, with their numbers. -/
def queued (c : Crew) : List (Job × Nat) := c.timer.queue.map Entry.ticket

@[simp] theorem queued_close (c : Crew) : c.close.queued = [] := rfl

@[simp] theorem discarded_close (c : Crew) : c.close.discarded = c.discarded ++ c.queued := rfl

@[simp] theorem started_close (c : Crew) : c.close.started = c.started := rfl

@[simp] theorem running_close (c : Crew) : c.close.running = c.running := rfl

theorem queued_submit_perm (h : c.timer.closed = false) (delay : Duration) (job : Job) :
    (c.submit delay job).queued.Perm ((job, c.timer.nextSeq) :: c.queued) := by
  rw [submit_of_open h]
  exact (Timer.insert_perm _ _).map _

/-- The tasks that were handed over are numbered in that order, and each of them is in one place. -/
structure Placed (c : Crew) : Prop where
  /-- A closed timer keeps nothing. -/
  empty : c.timer.closed = true → c.timer.queue = []
  /-- An open timer has taken all tasks so far, so its count is the number of the next one. -/
  next : c.timer.closed = false → c.timer.nextSeq = c.handed.length
  /-- Each task stands in one of three lists, once. -/
  places : (c.queued ++ c.started ++ c.discarded).Perm c.handed.zipIdx

namespace Placed

/-- A task that is handed over gets the next number. -/
theorem zipIdx_concat (handed : List Job) (job : Job) :
    (handed ++ [job]).zipIdx = handed.zipIdx ++ [(job, handed.length)] := by
  simp [List.zipIdx_append]

/-- Time, log and what is running have no part in this. -/
theorem frame (h : Placed c) (clock : Instant) (running : List Work) (records : List Log.Record) :
    Placed { c with clock, running, records } :=
  ⟨h.empty, h.next, h.places⟩

/-- A task is handed over. -/
theorem submit (h : Placed c) (delay : Duration) (job : Job) : Placed (c.submit delay job) := by
  cases hc : c.timer.closed with
  | false =>
    have kept := queued_submit_perm hc delay job
    rw [h.next hc] at kept
    rw [submit_of_open hc] at kept ⊢
    refine ⟨fun closed => ?_, fun _ => ?_, ?_⟩
    · rw [hc] at closed
      cases closed
    · simp [h.next hc]
    · refine List.perm_iff_count.2 fun t => ?_
      have kept := kept.count_eq t
      have places := h.places.count_eq t
      simp only [zipIdx_concat, List.count_append, List.count_cons, List.count_nil]
        at kept places ⊢
      omega
  | true =>
    rw [submit_of_closed hc]
    refine ⟨h.empty, fun isOpen => ?_, ?_⟩
    · rw [hc] at isOpen
      cases isOpen
    · rw [zipIdx_concat, ← List.append_assoc]
      exact h.places.append_right _

/-- The timer is closed. -/
theorem close (h : Placed c) : Placed c.close where
  empty := fun _ => rfl
  next := nofun
  places := by
    refine List.Perm.trans ?_ h.places
    show (c.started ++ (c.discarded ++ c.queued)).Perm _
    rw [← List.append_assoc, List.append_assoc c.queued]
    exact List.perm_append_comm

/-- A worker takes a task. -/
theorem take? (h : Placed c) (step : c.take? = some c') : Placed c' := by
  obtain ⟨e, rest, isOpen, queue, -, -, rfl⟩ := take?_eq_some step
  refine ⟨fun closed => ?_, h.next, List.Perm.trans ?_ h.places⟩
  · rw [isOpen] at closed
    cases closed
  · have first : c.queued = e.ticket :: rest.map Entry.ticket := by simp [queued, queue]
    rw [first]
    show (rest.map Entry.ticket ++ (c.started ++ [e.ticket]) ++ c.discarded).Perm _
    refine List.Perm.append_right _ ?_
    rw [← List.append_assoc]
    exact List.perm_append_singleton ..

/-- Every move leaves each task in one place. -/
theorem move (h : Placed c) {m : Move} (step : c.move m = some c') : Placed c' := by
  rcases move_cases step with
    ⟨clock, running, records, rfl⟩ | ⟨running, delay, job, rfl⟩ | ⟨running, rfl⟩ | taken
  · exact h.frame clock running records
  · exact (h.frame c.clock running c.records).submit delay job
  · exact (h.frame c.clock running c.records).close
  · exact h.take? taken

end Placed

/-! ## No name is lost -/

/-- The names of all tasks that were handed over and of all that follow from them: those of the
tasks that are kept, of what is still to come from the tasks that are running, of the tasks that
were started, and of the tasks that were discarded. -/
def names (c : Crew) : List String :=
  c.queued.flatMap (·.1.ids) ++ c.running.flatMap Work.ids ++ c.started.map (·.1.id) ++
    c.discarded.flatMap (·.1.ids)

/-- The names that come in from outside by a move. -/
def Move.names : Move → List String
  | .submit _ job => job.ids
  | _ => []

theorem names_submit (c : Crew) (delay : Duration) (job : Job) :
    (c.submit delay job).names.Perm (c.names ++ job.ids) := by
  refine List.perm_iff_count.2 fun x => ?_
  cases hc : c.timer.closed with
  | false =>
    have kept := ((queued_submit_perm hc delay job).flatMap_right (·.1.ids)).count_eq x
    rw [submit_of_open hc] at kept ⊢
    simp only [names, List.flatMap_cons, List.count_append] at kept ⊢
    omega
  | true =>
    rw [submit_of_closed hc]
    simp only [names, queued, List.flatMap_append, List.flatMap_singleton, List.count_append]
    omega

theorem names_close (c : Crew) : c.close.names.Perm c.names := by
  refine List.perm_iff_count.2 fun x => ?_
  simp only [names, queued_close, discarded_close, started_close, running_close, List.flatMap_nil,
    List.nil_append, List.flatMap_append, List.count_append]
  omega

theorem names_take? (h : c.take? = some c') : c'.names.Perm c.names := by
  obtain ⟨e, rest, -, queue, -, -, rfl⟩ := take?_eq_some h
  refine List.perm_iff_count.2 fun x => ?_
  simp only [names, queued, queue, Entry.ticket, Job.ids, List.map_cons, List.map_append,
    List.map_nil, List.flatMap_cons, List.flatMap_append, List.flatMap_nil, List.count_append,
    List.count_cons, List.count_nil]
  omega

/-- The names that follow from a task that is running. -/
theorem count_names_of_running {pre post : List Work} {work : Work}
    (h : c.running = pre ++ work :: post) (x : String) :
    c.names.count x = { c with running := pre ++ post }.names.count x + work.ids.count x := by
  simp only [names, queued, h, List.flatMap_append, List.flatMap_cons, List.count_append]
  omega

theorem names_go? {place : Nat} (h : c.go? place = some c') : c'.names.Perm c.names := by
  obtain ⟨pre, work, post, running, outcome⟩ := go?_eq_some h
  refine List.perm_iff_count.2 fun x => ?_
  have before := count_names_of_running running x
  have after (rest : Work) : { c with running := pre ++ rest :: post }.names.count x =
      { c with running := pre ++ post }.names.count x + rest.ids.count x :=
    count_names_of_running (c := { c with running := pre ++ rest :: post }) rfl x
  rcases outcome with ⟨rfl, rfl⟩ | ⟨rfl, rfl⟩ | ⟨delay, id, task, rest, rfl, rfl⟩ | ⟨rest, rfl, rfl⟩
  · rw [before]
    rfl
  · rw [before]
    rfl
  · rw [(names_submit _ delay ⟨id, task⟩).count_eq x, List.count_append, after, before]
    simp only [Work.ids, Job.ids, List.count_append, List.count_cons]
    omega
  · rw [(names_close _).count_eq x, after, before]
    rfl

/-- A move loses no name, and new names come from outside. -/
theorem names_move {m : Move} (h : c.move m = some c') : c'.names.Perm (c.names ++ m.names) := by
  cases m with
  | submit delay job =>
    cases h
    exact names_submit c delay job
  | take => simpa [Move.names] using names_take? h
  | go place => simpa [Move.names] using names_go? h
  | close =>
    cases h
    simpa [Move.names] using names_close c
  | pass moment =>
    obtain ⟨-, rfl⟩ := pass_eq_some h
    simp [Move.names, names, queued]

/-! ## Runs -/

theorem run_cons_eq_some {m : Move} {rest : List Move} (h : c.run (m :: rest) = some c') :
    ∃ c₁, c.move m = some c₁ ∧ c₁.run rest = some c' :=
  Option.bind_eq_some_iff.1 h

/-- Every run leaves each task in one place. -/
theorem Placed.run (placed : Placed c) {moves : List Move} (h : c.run moves = some c') :
    Placed c' := by
  induction moves generalizing c with
  | nil =>
    cases h
    exact placed
  | cons m rest ih =>
    obtain ⟨c₁, first, later⟩ := run_cons_eq_some h
    exact ih (placed.move first) later

/-- No run loses a name. -/
theorem names_run {moves : List Move} (h : c.run moves = some c') :
    c'.names.Perm (c.names ++ moves.flatMap Move.names) := by
  induction moves generalizing c with
  | nil =>
    cases h
    simp
  | cons m rest ih =>
    obtain ⟨c₁, first, later⟩ := run_cons_eq_some h
    rw [List.flatMap_cons, ← List.append_assoc]
    exact (ih later).trans ((names_move first).append_right _)

/-! ## After the end -/

/-- A move of a crew whose timer is closed starts nothing. -/
theorem move_of_closed (closed : c.timer.closed = true) (empty : c.timer.queue = []) {m : Move}
    (h : c.move m = some c') :
    c'.timer.closed = true ∧ c'.timer.queue = [] ∧ c'.started = c.started := by
  rcases move_cases h with
    ⟨clock, running, records, rfl⟩ | ⟨running, delay, job, rfl⟩ | ⟨running, rfl⟩ | taken
  · exact ⟨closed, empty, rfl⟩
  · rw [submit_of_closed (by exact closed)]
    exact ⟨closed, empty, rfl⟩
  · exact ⟨rfl, rfl, rfl⟩
  · obtain ⟨_, _, isOpen, -⟩ := take?_eq_some taken
    rw [closed] at isOpen
    cases isOpen

/-- A run of a crew whose timer is closed starts nothing. -/
theorem run_of_closed (closed : c.timer.closed = true) (empty : c.timer.queue = [])
    {moves : List Move} (h : c.run moves = some c') :
    c'.timer.closed = true ∧ c'.timer.queue = [] ∧ c'.started = c.started := by
  induction moves generalizing c with
  | nil =>
    cases h
    exact ⟨closed, empty, rfl⟩
  | cons m rest ih =>
    obtain ⟨c₁, first, later⟩ := run_cons_eq_some h
    obtain ⟨closed₁, empty₁, same₁⟩ := move_of_closed closed empty first
    obtain ⟨closed', empty', same'⟩ := ih closed₁ empty₁ later
    exact ⟨closed', empty', same'.trans same₁⟩

/-- The move that closes the timer discards all that it keeps. -/
theorem discarded_of_closing (isOpen : c.timer.closed = false) {m : Move}
    (h : c.move m = some c') (closed : c'.timer.closed = true) :
    c'.discarded = c.discarded ++ c.queued ∧ c'.started = c.started := by
  have turned : c'.timer.closed ≠ c.timer.closed := by
    rw [isOpen, closed]
    decide
  rcases move_cases h with
    ⟨clock, running, records, rfl⟩ | ⟨running, delay, job, rfl⟩ | ⟨running, rfl⟩ | taken
  · exact absurd rfl turned
  · rw [submit_of_open (by exact isOpen)] at turned
    exact absurd rfl turned
  · exact ⟨rfl, rfl⟩
  · obtain ⟨_, _, -, -, -, -, rfl⟩ := take?_eq_some taken
    exact absurd rfl turned

/-! ## Whole runs -/

/-- A run in which no time is lost is a run. -/
theorem exists_run_eq_play (fuel : Nat) (c : Crew) : ∃ moves, c.run moves = some (c.play fuel) := by
  induction fuel generalizing c with
  | zero => exact ⟨[], rfl⟩
  | succ fuel ih =>
    rw [play]
    cases hm : c.nextMove? with
    | none => exact ⟨[], rfl⟩
    | some m =>
      rw [Option.bind_some]
      cases hc : c.move m with
      | none => exact ⟨[], rfl⟩
      | some c₁ =>
        obtain ⟨moves, run⟩ := ih c₁
        exact ⟨m :: moves, Option.bind_eq_some_iff.2 ⟨c₁, hc, run⟩⟩

/-- The name and the number of a task. -/
def tag (t : Job × Nat) : String × Nat := (t.1.id, t.2)

/-- A crew without failures has the tasks of the crew with them. -/
theorem tags_calm (c : Crew) :
    c.calm.queued.map tag = c.queued.map tag ∧ c.calm.started.map tag = c.started.map tag ∧
      c.calm.discarded.map tag = c.discarded.map tag := by
  simp [queued, calm, Timer.map, Entry.map, Entry.ticket, tag, Job.calm, Function.comp_def]

/-- A number that was given is in one place. -/
theorem Placed.count_eq_one (h : Placed c) {n : Nat} (given : n < c.handed.length) :
    c.timer.queue.countP (·.seq = n) + c.started.countP (·.2 = n) +
      c.discarded.countP (·.2 = n) = 1 := by
  have once : c.handed.zipIdx.countP (·.2 = n) = 1 := by
    have numbers : c.handed.zipIdx.map (·.2) = List.range c.handed.length := by
      rw [List.range_eq_range']
      exact List.zipIdx_map_snd ..
    have unique := List.count_eq_one_of_mem List.nodup_range (List.mem_range.2 given)
    rw [← numbers, List.count, List.countP_map] at unique
    exact unique
  rw [← once, ← h.places.countP_eq, List.countP_append, List.countP_append, queued,
    List.countP_map]
  rfl

/-- Conservation of tasks. In every state that a crew reaches, with whatever tasks and workers, each
task that was handed over is kept, or it was started once, or it was discarded once; and so is each
task that it would have handed over, unless it is still to come from one that is running. The move
that closes the timer discards all that is kept; from then on nothing is kept and nothing is
started. Failures make no difference to this: had other tasks failed, the same tasks would be kept,
started and discarded. -/
theorem run_accounts {workers : Nat} {moves : List Move}
    (h : ({ workers } : Crew).run moves = some c) :
    (c.queued ++ c.started ++ c.discarded).Perm c.handed.zipIdx ∧
    (∀ n < c.handed.length, c.timer.queue.countP (·.seq = n) + c.started.countP (·.2 = n) +
      c.discarded.countP (·.2 = n) = 1) ∧
    c.timer.pending + c.started.length + c.discarded.length = c.handed.length ∧
    (c.queued.flatMap (·.1.ids) ++ c.running.flatMap Work.ids ++ c.started.map (·.1.id) ++
      c.discarded.flatMap (·.1.ids)).Perm (moves.flatMap Move.names) ∧
    (∀ m c', c.move m = some c' → c.timer.closed = false → c'.timer.closed = true →
      c'.discarded = c.discarded ++ c.queued ∧ c'.started = c.started) ∧
    (c.timer.closed = true → c.timer.queue = [] ∧ ∀ later c', c.run later = some c' →
      c'.timer.closed = true ∧ c'.timer.queue = [] ∧ c'.started = c.started) ∧
    (∀ moves', moves'.map Move.calm = moves.map Move.calm →
      ∃ c', ({ workers } : Crew).run moves' = some c' ∧ c'.queued.map tag = c.queued.map tag ∧
        c'.started.map tag = c.started.map tag ∧ c'.discarded.map tag = c.discarded.map tag) := by
  have fresh : Placed ({ workers } : Crew) := ⟨fun _ => rfl, fun _ => rfl, .nil⟩
  have placed : Placed c := fresh.run h
  refine ⟨placed.places, fun n => placed.count_eq_one, ?_, names_run h, ?_, ?_, ?_⟩
  · have lengths := placed.places.length_eq
    simp only [queued, List.length_append, List.length_map, List.length_zipIdx] at lengths
    exact lengths
  · exact fun m c' step isOpen => discarded_of_closing isOpen step
  · exact fun closed => ⟨placed.empty closed,
      fun later c' => run_of_closed closed (placed.empty closed)⟩
  · intro moves' same
    obtain ⟨c', run, ends⟩ := exists_run_of_map_calm_eq h same
    obtain ⟨queued, started, discarded⟩ := tags_calm c'
    obtain ⟨queued', started', discarded'⟩ := tags_calm c
    rw [ends] at queued started discarded
    exact ⟨c', run, queued.symm.trans queued', started.symm.trans started',
      discarded.symm.trans discarded'⟩

/-- Two workers. A task hands over another and fails, and the other closes the timer, which still
keeps a task; then one more task comes. -/
theorem run_accounts_closed_inside :
    let first (last : Work) : Job := ⟨"first", .hand (.ofSecs 1) "second" (.release .done) last⟩
    let late : Job := ⟨"late", .hand .zero "later" .done .done⟩
    let moves (last : Work) : List Move := [.submit .zero (first last), .submit (.ofSecs 10) late,
      .take, .go 0, .go 0, .pass 1000000000, .take, .go 0, .submit .zero ⟨"refused", .done⟩, .go 0]
    ∃ c c', ({ workers := 2 } : Crew).run (moves .fail) = some c ∧
      ({ workers := 2 } : Crew).run (moves .done) = some c' ∧
      c'.started.map tag = [("first", 0), ("second", 2)] ∧
      c.discarded.map tag = [("late", 1), ("refused", 3)] ∧ c.timer.queue = [] ∧
      c.timer.queue.countP (·.seq = 1) + c.started.countP (·.2 = 1) +
        c.discarded.countP (·.2 = 1) = 1 := by
  intro first late moves
  have outcome : (({ workers := 2 } : Crew).run (moves .fail)).map (fun c =>
      (c.started.map tag, c.discarded.map tag, c.handed.length, c.timer.closed)) =
      some ([("first", 0), ("second", 2)], [("late", 1), ("refused", 3)], 4, true) := by
    decide +kernel
  simp only [Option.map_eq_some_iff, Prod.mk.injEq] at outcome
  obtain ⟨c, run, started, discarded, four, closed⟩ := outcome
  obtain ⟨-, once, -, -, -, after, alike⟩ := run_accounts run
  obtain ⟨c', run', -, started', -⟩ := alike (moves .done) rfl
  exact ⟨c, c', run, run', started'.trans started, discarded, (after closed).1,
    once 1 (by omega)⟩

end WebCall.Crew
