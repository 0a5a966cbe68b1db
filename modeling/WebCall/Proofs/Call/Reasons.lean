import WebCall.Proofs.Call.Custody
import WebCall.Proofs.Call.Kinds

/-!
# Reasons of results

Whatever an attempt is about to bring, and whatever a call has got, has a reason in the last reply.
That an attempt finds its token set leaves no trace among the events, so it is read off the moves of
the run.

## Main definitions

* `View.last?`: the last reply of a call.
* `View.Reasoned`: what is on its way to the thread of a call has a reason. Every step preserves
  this.
* `Crowd.stopped`: whether an attempt of a call found its token set in a run.
-/
namespace WebCall.Call

variable {σ : Type}

/-! ## The last reply of a call -/

namespace Event

theorem filterMap_exchanged?_map_noted (records : List Log.Record) :
    (records.map noted).filterMap exchanged? = [] := by
  simp [List.filterMap_eq_nil_iff, exchanged?]

end Event

theorem Caller.filterMap_exchanged?_answerEvents (c : Caller) (answer : Exchanged) :
    (c.answerEvents answer).filterMap Event.exchanged? = [answer] := by
  simp only [answerEvents]
  cases answer with
  | error e => rfl
  | ok response =>
    cases hv : judge c.order.policy response with
    | done outcome =>
      simp only [hv]
      rfl
    | retry delay =>
      cases hd : c.order.policy.decide (c.attempts + 1) delay <;> simp only [hv, hd] <;> rfl

theorem Seat.filterMap_exchanged?_abandon (s : Seat σ) :
    s.abandon.2.filterMap Event.exchanged? = [] := by
  rw [abandon]
  split <;> rfl

namespace View

variable {v v' : View σ}

/-- The last reply of a call. -/
def last? (v : View σ) : Option Exchanged := (v.log.filterMap Event.exchanged?).getLast?

/-- Events without a reply. -/
theorem last?_note (v : View σ) (now : Instant) {es : List Event}
    (silent : es.filterMap Event.exchanged? = []) : (v.note now es).last? = v.last? := by
  rw [last?, log_note, List.filterMap_append, silent, List.append_nil]
  rfl

/-- A reply comes in. -/
theorem last?_note_answer (v : View σ) (now : Instant) (c : Caller) (records : List Log.Record)
    (answer : Exchanged) :
    (v.note now (records.map Event.noted ++ c.answerEvents answer)).last? = some answer := by
  rw [last?, log_note, List.filterMap_append, List.filterMap_append,
    Event.filterMap_exchanged?_map_noted, c.filterMap_exchanged?_answerEvents, List.nil_append,
    List.getLast?_concat]

end View

/-! ## Reasons -/

/-- Whether what an attempt is about to do has a reason. -/
def Stage.Reasoned (last : Option Exchanged) (stopped : Bool) : Stage → Prop
  | begun | sent | ended (.again _) => stopped = false ∧ Undecided last
  | ended (.resolve outcome) => ComesTo last stopped outcome
  | closing => True

/-- Whether what a call has got has a reason. -/
structure Seat.Reasoned (last : Option Exchanged) (stopped : Bool) (s : Seat σ) : Prop where
  idle : s.started = false → last = none ∧ stopped = false
  /-- The result is in the cell, or the thread has it. -/
  stored : s.cell.resolved = true →
    ∃ outcome, s.cell.slot.or s.result = some outcome ∧ ComesTo last stopped outcome

/-- What an attempt comes to has its reply for a reason. -/
theorem Caller.reasoned_ending (c : Caller) (answer : Exchanged) :
    (Stage.ended (c.ending answer)).Reasoned (some answer) false := by
  let reply : Reply := ⟨answer, false, []⟩
  cases decides : decided? answer with
  | some outcome =>
    have resolves : c.ending reply.outcome = .resolve outcome := ending_of_terminal decides
    rw [show c.ending answer = _ from resolves]
    exact .decided rfl rfl decides
  | none =>
    have undecided : Undecided (some answer) := by
      rintro _ ⟨⟩
      exact decides
    cases wait : reply.wait? c.order.policy with
    | none =>
      obtain ⟨outcome, terminal⟩ := Reply.wait?_eq_none_iff.1 wait
      cases decides.symm.trans terminal
    | some delay =>
      rw [show c.ending answer = _ from ending_of_wait wait]
      split
      · exact .exhausted nofun rfl undecided
      · exact ⟨rfl, undecided⟩

namespace Seat.Reasoned

variable {last last' : Option Exchanged} {stopped stopped' : Bool} {s s' : Seat σ}

/-- Nothing is asked of a call that goes on without a result. -/
theorem of_unresolved (begun : s.Begun) (unresolved : s.cell.resolved = false) :
    s.Reasoned last stopped where
  idle := by simp [begun.1]
  stored := by simp [unresolved]

/-- Nothing but the start, the cell and the result matters of a seat. -/
theorem congr (h : s.Reasoned last stopped) (started : s'.started = s.started)
    (cell : s'.cell = s.cell) (result : s'.result = s.result) : s'.Reasoned last stopped where
  idle := started ▸ h.idle
  stored := by
    rw [cell, result]
    exact h.stored

/-- A result is brought for a reason. -/
theorem bring {outcome : Outcome} (begun : s.Begun) (unresolved : s.cell.resolved = false)
    (reason : ComesTo last stopped outcome) : (s.bring outcome).1.Reasoned last stopped := by
  rw [bring_of_unresolved unresolved]
  exact ⟨by simp [begun.1], fun _ => ⟨outcome, rfl, reason⟩⟩

/-- The caller of a call is dropped by the last who had it. -/
theorem abandon (begun : s.Begun) (unresolved : s.cell.resolved = false)
    (goes : stopped = false) (undecided : Undecided last) :
    s.abandon.1.Reasoned last stopped := by
  rw [abandon_of_unresolved unresolved]
  exact ⟨by simp [begun.1], fun _ => ⟨_, rfl, .abandoned goes undecided⟩⟩

theorem leave (h : s.Reasoned last stopped) (onWorker : Bool) (now : Instant) :
    (s.leave onWorker now).Reasoned last stopped := by
  cases onWorker
  · exact h.congr rfl rfl rfl
  · exact h

/-- The thread of the call looks into its cell. -/
theorem look (h : s.Reasoned last stopped) (pending : s.result = none) (cancelled : Bool) :
    (s.look cancelled).Reasoned last stopped where
  idle := h.idle
  stored := by
    intro resolved
    rw [Seat.look, ResultCell.resolved_round] at resolved
    obtain ⟨outcome, there, reason⟩ := h.stored resolved
    rw [pending, Option.or_none] at there
    refine ⟨outcome, ?_, reason⟩
    simp only [Seat.look, ResultCell.round_of_slot_eq_some there]
    rfl

end Seat.Reasoned

namespace View

variable {v v' : View σ} {s : Seat σ} {a : Attempt} {stopped : Bool} {i : Nat}

/-- What is on its way to the thread of a call has a reason. -/
structure Reasoned (stopped : Bool) (v : View σ) : Prop where
  seat : ∀ s, v.seat = some s → s.Reasoned v.last? stopped
  attempts : ∀ a ∈ v.attempts, a.stage.Reasoned v.last? stopped
  tasks : v.tasks ≠ [] → stopped = false ∧ Undecided v.last?

namespace Reasoned

/-- The caller of a call is dropped by the last who had it. -/
theorem abandon {u : View σ} (seat : u.seat = some s) (begun : s.Begun)
    (unresolved : s.cell.resolved = false) (attempts : u.attempts = []) (tasks : u.tasks = [])
    (goes : stopped = false) (undecided : Undecided u.last?) (now : Instant) :
    (u.abandon now).Reasoned stopped := by
  rw [View.abandon, seat]
  have same := View.last?_note { u with seat := some s.abandon.1 } now s.filterMap_exchanged?_abandon
  refine ⟨?_, ?_, ?_⟩
  · rintro _ ⟨⟩
    rw [same]
    exact .abandon begun unresolved goes undecided
  · rintro a ha
    exact absurd (attempts ▸ ha) List.not_mem_nil
  · exact fun kept => absurd tasks kept

/-- A step without a reply. -/
theorem quiet {es : List Event} (silent : es.filterMap Event.exchanged? = [])
    (seat : s.Reasoned v.last? stopped) {as : List Attempt}
    (attempts : ∀ a ∈ as, a.stage.Reasoned v.last? stopped) {ts : List (Entry Caller)}
    (tasks : ts ≠ [] → stopped = false ∧ Undecided v.last?) (now : Instant) :
    ({ v with seat := some s, attempts := as, tasks := ts }.note now es).Reasoned stopped := by
  have same := View.last?_note { v with seat := some s, attempts := as, tasks := ts } now silent
  refine ⟨?_, ?_, ?_⟩
  · rintro _ ⟨⟩
    rw [same]
    exact seat
  · rw [same]
    exact attempts
  · rw [same]
    exact tasks

/-- A step of an attempt that hands over no task, and does not find its token set. -/
theorem go (h : Reasoned stopped v) (custody : Custody v) {client : Client σ} {cancelled : Bool}
    {now : Instant} {way : Handover} {pre post : List Attempt} {r : Advance σ}
    (seat : v.seat = some s) (attempts : v.attempts = pre ++ a :: post)
    (goes : a.stage = .begun → cancelled = false)
    (advance : a.advance client cancelled now way s = r) (task : r.task = none) :
    ({ v with seat := some r.seat, attempts := pre ++ r.attempt.toList ++ post }.note now
      r.events).Reasoned stopped := by
  obtain ⟨rfl, rfl, tasks, begun, state⟩ := custody.of_attempts seat attempts
  have reason := h.attempts a (by simp [attempts])
  have seated := h.seat s seat
  have only {x : Option Attempt} (hx : ∀ b, x = some b → b.stage.Reasoned v.last? stopped) :
      ∀ b ∈ [] ++ x.toList ++ [], b.stage.Reasoned v.last? stopped := by simpa using hx
  obtain ⟨c, stage, onWorker⟩ := a
  subst advance
  match stage, state with
  | .begun, .inl ⟨_, unresolved, _⟩ =>
    obtain rfl := goes rfl
    refine quiet rfl seated (only ?_) h.tasks now
    rintro _ ⟨⟩
    exact reason
  | .sent, .inl ⟨_, unresolved, _⟩ =>
    obtain ⟨rfl, -⟩ := reason
    have last := View.last?_note_answer { v with
      seat := some { s with client := (client s.client (c.sent cancelled)).2 }
      attempts := [⟨c, .ended (c.ending (client s.client (c.sent cancelled)).1.outcome), onWorker⟩] }
      now c (client s.client (c.sent cancelled)).1.records
      (client s.client (c.sent cancelled)).1.outcome
    refine ⟨?_, ?_, fun kept => absurd tasks kept⟩
    · rintro _ ⟨⟩
      exact .of_unresolved begun unresolved
    · intro b hb
      obtain rfl := List.mem_singleton.1 hb
      exact (congrArg (Stage.Reasoned · false _) last).mpr (c.reasoned_ending _)
  | .ended (.resolve outcome), .inl ⟨_, unresolved, _⟩ =>
    refine quiet rfl (.bring begun unresolved reason) (only ?_) h.tasks now
    rintro _ ⟨⟩
    trivial
  | .ended (.again delay), .inl ⟨_, unresolved, _⟩ =>
    obtain ⟨goes, undecided⟩ := reason
    cases way with
    | keep => cases task
    | run =>
      refine quiet rfl seated (only ?_) h.tasks now
      rintro _ ⟨⟩
      exact ⟨goes, undecided⟩
    | drop =>
      have seated := (Seat.Reasoned.abandon begun unresolved goes undecided).leave onWorker now
      refine quiet ?_ seated (only ?_) h.tasks now
      · exact s.filterMap_exchanged?_abandon
      · rintro _ ⟨⟩
  | .closing, .inr ⟨_, set, _⟩ =>
    simp only [Attempt.advance, Seat.abandon_of_resolved set]
    refine quiet rfl (seated.leave onWorker now) (only ?_) h.tasks now
    rintro _ ⟨⟩
  | .closing, .inl ⟨pending, _, _⟩ => cases pending

/-- A step of an attempt that hands over a task, to a scheduler that keeps it. -/
theorem hand (h : Reasoned stopped v) (custody : Custody v) {client : Client σ} {cancelled : Bool}
    {now : Instant} {way : Handover} {pre post : List Attempt} {r : Advance σ} {delay : Duration}
    {c : Caller} {tasks : List (Entry Caller)} (seat : v.seat = some s)
    (attempts : v.attempts = pre ++ a :: post)
    (advance : a.advance client cancelled now way s = r) (task : r.task = some (delay, c)) :
    ({ v with
      seat := some r.seat
      attempts := pre ++ r.attempt.toList ++ post
      tasks }.note now r.events).Reasoned stopped := by
  obtain ⟨rfl, rfl, -, begun, -⟩ := custody.of_attempts seat attempts
  obtain ⟨-, -, again, eq⟩ := Attempt.advance_of_task (advance ▸ task)
  rw [advance] at eq
  subst eq
  have reason := h.attempts a (by simp [attempts])
  rw [again] at reason
  have gone : ∀ b ∈ ([] : List Attempt), b.stage.Reasoned v.last? stopped := nofun
  exact quiet rfl ((h.seat s seat).leave _ _) gone (fun _ => reason) now

/-- A step of an attempt that hands over a task, to a timer that is closed. -/
theorem lose (h : Reasoned stopped v) (custody : Custody v) {client : Client σ} {cancelled : Bool}
    {now : Instant} {way : Handover} {pre post : List Attempt} {r : Advance σ} {delay : Duration}
    {c : Caller} (seat : v.seat = some s) (attempts : v.attempts = pre ++ a :: post)
    (advance : a.advance client cancelled now way s = r) (task : r.task = some (delay, c)) :
    (({ v with
      seat := some r.seat
      attempts := pre ++ r.attempt.toList ++ post }.note now r.events).abandon now).Reasoned
        stopped := by
  obtain ⟨rfl, rfl, tasks, begun, state⟩ := custody.of_attempts seat attempts
  obtain ⟨-, -, again, eq⟩ := Attempt.advance_of_task (advance ▸ task)
  rw [advance] at eq
  subst eq
  have reason := h.attempts a (by simp [attempts])
  rw [again] at reason state
  rcases state with ⟨-, unresolved, -⟩ | ⟨closing, -⟩
  · let handed : View σ := { v with seat := some (s.leave a.onWorker now), attempts := [] }.note now
      [a.caller.handoverEvent delay]
    have same : handed.last? = v.last? := View.last?_note _ now rfl
    refine .abandon (u := handed) rfl ?_ ?_ rfl tasks reason.1 (same ▸ reason.2) now
    · simpa [Seat.Begun] using begun
    · simpa using unresolved
  · cases closing

/-- An attempt finds its token set. -/
theorem stop (h : Reasoned stopped v) (custody : Custody v) {pre post : List Attempt}
    (seat : v.seat = some s) (attempts : v.attempts = pre ++ a :: post) (begun : a.stage = .begun) :
    ({ v with attempts := pre ++
      { a with stage := .ended (.resolve (.error (.ofTransport .interrupted))) } :: post } :
        View σ).Reasoned true := by
  obtain ⟨rfl, rfl, tasks, started, state⟩ := custody.of_attempts seat attempts
  have reason := h.attempts a (by simp [attempts])
  rw [begun] at reason state
  rcases state with ⟨-, unresolved, -⟩ | ⟨closing, -⟩
  · refine ⟨?_, ?_, fun kept => absurd tasks kept⟩
    · intro t ht
      obtain rfl := Option.some.inj (seat.symm.trans ht)
      exact .of_unresolved started unresolved
    · intro b hb
      obtain rfl := List.mem_singleton.1 hb
      exact .stopped rfl reason.2
  · cases closing

/-- Every step of a call preserves that its result has a reason, but for the step of an attempt that
finds its token set. -/
theorem step (h : Reasoned stopped v) (custody : Custody v) {client : Client σ}
    {before after : Tokens} {now : Instant} {free : Prop}
    (stays : ∀ a ∈ v.attempts, a.stage = .begun → before.isCancelled a.caller.token = true →
      a ∈ v'.attempts)
    (step : View.Step client before after now free i v v') : Reasoned stopped v' := by
  cases step with
  | @refuse s seat idle blank =>
    obtain ⟨unresolved, -⟩ := custody.of_idle seat idle
    refine ⟨?_, h.attempts, h.tasks⟩
    rintro _ ⟨⟩
    exact ⟨nofun, by simp [unresolved]⟩
  | @start s seat idle credential =>
    obtain ⟨unresolved, attempts, -⟩ := custody.of_idle seat idle
    obtain ⟨fresh, goes⟩ := (h.seat s seat).idle idle
    refine ⟨?_, ?_, h.tasks⟩
    · rintro _ ⟨⟩
      exact ⟨nofun, by simp [unresolved]⟩
    · intro b hb
      rw [attempts] at hb
      obtain rfl := List.mem_singleton.1 hb
      refine ⟨goes, fun e reply => ?_⟩
      cases fresh.symm.trans reply
  | @go s a pre post way r seat attempts _ advance task _ =>
    refine h.go custody seat attempts ?_ advance task
    intro begun
    -- An attempt that finds its token set has left the stage in which it stays by assumption.
    by_contra set
    rw [Bool.not_eq_false] at set
    obtain ⟨rfl, rfl, -⟩ := custody.of_attempts seat attempts
    have still := stays a (by simp [attempts]) begun set
    obtain ⟨c, stage, onWorker⟩ := a
    subst begun advance
    rw [set] at still
    cases (List.mem_singleton.1 still)
  | hand seat attempts advance task kept => exact h.hand custody seat attempts advance task
  | lose seat attempts _ advance task => exact h.lose custody seat attempts advance task
  | @take e pre post tasks _ =>
    obtain ⟨rfl, rfl, attempts, -⟩ := custody.of_tasks tasks
    refine ⟨h.seat, ?_, nofun⟩
    intro b hb
    rw [attempts] at hb
    obtain rfl := List.mem_singleton.1 hb
    exact h.tasks (by simp [tasks])
  | @discard e pre post tasks _ =>
    obtain ⟨goes, undecided⟩ := h.tasks (by simp [tasks])
    obtain ⟨rfl, rfl, attempts, s, seat, begun, unresolved, -⟩ := custody.of_tasks tasks
    exact .abandon (u := { v with tasks := [] }) seat begun unresolved attempts rfl goes undecided now
  | @poll s seat waits pending =>
    refine ⟨?_, h.attempts, h.tasks⟩
    rintro _ ⟨⟩
    exact (h.seat s seat).look pending _

end Reasoned

end View

namespace Crowd

variable {w w' : Crowd σ} {client : Client σ} {i : Nat} {m : Move}

/-- Whether a move is the step of an attempt of a call that finds its token set. -/
def stops (w : Crowd σ) (i : Nat) : Move → Bool
  | .advance k _ =>
    match w.attempts[k]? with
    | some ⟨c, .begun, _⟩ => c.cell = i && w.tokens.isCancelled c.token
    | _ => false
  | _ => false

/-- Whether an attempt of a call finds its token set in a run. -/
def stopped (client : Client σ) (i : Nat) (w : Crowd σ) : List Move → Bool
  | [] => false
  | m :: rest => w.stops i m || ((w.move client m).map fun w => stopped client i w rest).getD false

theorem stops_eq_true_iff {k : Nat} {way : Handover} :
    w.stops i (.advance k way) = true ↔ ∃ a, w.attempts[k]? = some a ∧ a.stage = .begun ∧
      a.caller.cell = i ∧ w.tokens.isCancelled a.caller.token = true := by
  cases ha : w.attempts[k]? with
  | none => simp [stops, ha]
  | some a =>
    obtain ⟨c, stage, onWorker⟩ := a
    cases stage <;> simp [stops, ha]

theorem mem_attempts_begin (w : Crowd σ) (c : Caller) (onWorker : Bool) {a : Attempt}
    (ha : a ∈ w.attempts) : a ∈ (w.begin c onWorker).attempts :=
  List.mem_append_left _ ha

/-- An attempt is still there after a move, unless the move is a step of it. -/
theorem mem_attempts_of_move (h : w.move client m = some w') {a : Attempt} (ha : a ∈ w.attempts)
    (other : ∀ k way, m = .advance k way → w.attempts[k]? ≠ some a) : a ∈ w'.attempts := by
  cases m with
  | start call =>
    obtain ⟨s, -, -, ⟨-, rfl⟩ | ⟨-, rfl⟩⟩ := start?_eq_some h
    · exact ha
    · exact mem_attempts_begin _ _ _ ha
  | advance k way =>
    obtain ⟨b, s, r, hb, -, -, outcome⟩ := advance?_eq_some h
    have left : a ∈ (w.enact k b.caller r).attempts := by
      have replaced := (w.act b.caller.cell r.seat r.events).attempts_replace hb r.attempt
      have differs : a ≠ b := fun same => other k way rfl (same ▸ hb)
      have around := w.attempts_eq hb
      rw [around] at ha
      rw [show (w.enact k b.caller r).attempts = _ from replaced]
      simp only [attempts_act, List.mem_append, List.mem_cons, differs, false_or] at ha ⊢
      exact ha.imp_left .inl
    rcases outcome with ⟨-, rfl⟩ | ⟨delay, -, -, rfl⟩
    · exact left
    · rw [attempts_submit]
      exact left
  | work =>
    obtain ⟨e, -, rfl⟩ := Option.map_eq_some_iff.1 (run?_of_work? h).1
    exact mem_attempts_begin _ _ _ ha
  | run place =>
    obtain ⟨e, -, rfl⟩ := Option.map_eq_some_iff.1 h
    exact mem_attempts_begin _ _ _ ha
  | drop place =>
    obtain ⟨e, -, rfl⟩ := Option.map_eq_some_iff.1 h
    rw [attempts_abandon]
    exact ha
  | close =>
    cases h
    exact ha
  | poll call =>
    obtain ⟨s, -, -, -, rfl⟩ := poll?_eq_some h
    exact ha
  | cancel token =>
    cases h
    exact ha
  | pass moment =>
    simp only [move, Option.ite_none_right_eq_some, Option.some.injEq] at h
    obtain ⟨-, rfl⟩ := h
    exact ha

/-- How it looks to a call that an attempt of it finds its token set. -/
theorem view_of_stops (h : w.move client m = some w') (stops : w.stops i m = true) :
    ∃ s a pre post, (w.view i).seat = some s ∧ (w.view i).attempts = pre ++ a :: post ∧
      a.stage = .begun ∧ w'.view i = { w.view i with attempts := pre ++
        { a with stage := .ended (.resolve (.error (.ofTransport .interrupted))) } :: post } := by
  cases m with
  | advance k way =>
    obtain ⟨a, ha, begun, own, set⟩ := stops_eq_true_iff.1 stops
    obtain ⟨b, s, r, hb, hs, hr, outcome⟩ := advance?_eq_some h
    obtain rfl := Option.some.inj (ha.symm.trans hb)
    have stays : ∀ b, r.attempt = some b → b.caller.cell = a.caller.cell := by
      intro b hb
      rw [← hr] at hb
      exact Attempt.cell_of_advance hb
    rw [own] at hs
    obtain ⟨pre, post, attempts, shown⟩ := w.view_enact_self ha hs own stays
    obtain ⟨c, stage, onWorker⟩ := a
    subst begun
    rw [set] at hr
    subst hr
    rcases outcome with ⟨-, rfl⟩ | ⟨delay, -, task, -⟩
    · refine ⟨s, _, pre, post, hs, attempts, rfl, shown.trans ?_⟩
      have seat : some s = (w.view i).seat := hs.symm
      simp [Attempt.advance, seat]
    · cases task
  | start | work | run | drop | close | poll | cancel | pass => cases stops

/-- Every move preserves that what a call gets has a reason. -/
theorem reasoned_of_move (h : w.move client m = some w') (custody : ∀ j, (w.view j).Custody)
    {stopped : Bool} (reasoned : (w.view i).Reasoned stopped) :
    (w'.view i).Reasoned (stopped || w.stops i m) := by
  cases stops : w.stops i m with
  | false =>
    rw [Bool.or_false]
    rcases view_move h i with same | step
    · rw [same]
      exact reasoned
    · refine reasoned.step (custody i) ?_ step
      intro a ha begun set
      rw [view, List.mem_filter, decide_eq_true_iff] at ha ⊢
      refine ⟨mem_attempts_of_move h ha.1 ?_, ha.2⟩
      rintro k way rfl hk
      rw [stops_eq_true_iff.2 ⟨a, hk, begun, ha.2, set⟩] at stops
      cases stops
  | true =>
    rw [Bool.or_true]
    obtain ⟨s, a, pre, post, seat, attempts, begun, shown⟩ := view_of_stops h stops
    rw [shown]
    exact reasoned.stop (custody i) seat attempts begun

/-- Every run preserves that what a call gets has a reason. -/
theorem reasoned_of_run {moves : List Move} (h : w.run client moves = some w')
    (custody : ∀ j, (w.view j).Custody) {before : Bool} (reasoned : (w.view i).Reasoned before) :
    (w'.view i).Reasoned (before || stopped client i w moves) := by
  induction moves generalizing w before with
  | nil =>
    cases h
    rw [stopped, Bool.or_false]
    exact reasoned
  | cons m rest ih =>
    obtain ⟨w₁, first, later⟩ := run_cons_eq_some h
    have onward := ih later (custody_of_move first custody) (reasoned_of_move first custody reasoned)
    rw [stopped, first, ← Bool.or_assoc]
    exact onward

theorem Fresh.reasoned (fresh : w.Fresh) (i : Nat) : (w.view i).Reasoned false where
  seat := by
    intro s hs
    obtain ⟨-, unresolved⟩ := fresh.seats s (List.mem_of_getElem? hs)
    have silent : (w.view i).last? = none := by
      simp [View.last?, View.log, view, eventsOf, fresh.happenings]
    exact ⟨fun _ => ⟨silent, rfl⟩, by simp [unresolved]⟩
  attempts := by simp [view, fresh.attempts]
  tasks := by simp [view, fresh.queue]

end Crowd

end WebCall.Call
