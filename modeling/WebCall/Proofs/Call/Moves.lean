import WebCall.Call.Crowd

/-!
# Moves of a crowd

What a move requires of a crowd and what it makes of it, one lemma for each kind of move that has
something to require. Apart from what the calls see, a move does little: the clock does not go back,
no token is unset, and the timer stays open unless it is closed.

## Main definitions

* `Crowd.advance?_eq_some`, `Crowd.start?_eq_some`, `Crowd.poll?_eq_some`: the moves of a call.
* `Crowd.frame_move`: clock, tokens and timer under any move.
-/
namespace WebCall.Call

variable {σ : Type}

/-- A step of an attempt leaves an attempt of the same call, if any. -/
theorem Attempt.cell_of_advance {client : Client σ} {cancelled : Bool} {now : Instant}
    {way : Handover} {a b : Attempt} {s : Seat σ}
    (h : (a.advance client cancelled now way s).attempt = some b) :
    b.caller.cell = a.caller.cell := by
  rw [Attempt.advance] at h
  dsimp only at h
  split at h
  · split at h <;> cases h <;> rfl
  · cases h
    rfl
  · cases h
    rfl
  · split at h <;> cases h
    rfl
  · cases h

/-- An attempt hands over a task when it is to be tried again and the task may be kept, and by that
it leaves its thread. -/
theorem Attempt.advance_of_task {client : Client σ} {cancelled : Bool} {now : Instant}
    {way : Handover} {a : Attempt} {s : Seat σ} {delay : Duration} {c : Caller}
    (h : (a.advance client cancelled now way s).task = some (delay, c)) :
    way = .keep ∧ c = a.caller.next ∧ a.stage = .ended (.again delay) ∧
      a.advance client cancelled now way s = {
        seat := s.leave a.onWorker now
        attempt := none
        task := some (delay, a.caller.next)
        events := [a.caller.handoverEvent delay] } := by
  obtain ⟨caller, stage, onWorker⟩ := a
  match stage with
  | .begun => cases cancelled <;> cases h
  | .sent => cases h
  | .ended (.resolve _) => cases h
  | .ended (.again _) =>
    cases way <;> cases h
    exact ⟨rfl, rfl, rfl, rfl⟩
  | .closing => cases h

namespace Crowd

variable (w : Crowd σ)

/-! ## Clock, tokens and timer under the parts of a move -/

@[simp] theorem clock_act (call : Nat) (s : Seat σ) (es : List Event) :
    (w.act call s es).clock = w.clock := rfl
@[simp] theorem timer_act (call : Nat) (s : Seat σ) (es : List Event) :
    (w.act call s es).timer = w.timer := rfl
@[simp] theorem tokens_act (call : Nat) (s : Seat σ) (es : List Event) :
    (w.act call s es).tokens = w.tokens := rfl
@[simp] theorem attempts_act (call : Nat) (s : Seat σ) (es : List Event) :
    (w.act call s es).attempts = w.attempts := rfl

@[simp] theorem tokens_abandon (call : Nat) : (w.abandon call).tokens = w.tokens := by
  rw [abandon]
  split <;> rfl

@[simp] theorem tokens_submit (delay : Duration) (c : Caller) :
    (w.submit delay c).tokens = w.tokens := by
  rw [submit]
  split
  · rfl
  · simp

@[simp] theorem clock_replace (k : Nat) (x : Option Attempt) :
    (w.replace k x).clock = w.clock := by
  cases x <;> rfl

@[simp] theorem timer_replace (k : Nat) (x : Option Attempt) :
    (w.replace k x).timer = w.timer := by
  cases x <;> rfl

@[simp] theorem tokens_replace (k : Nat) (x : Option Attempt) :
    (w.replace k x).tokens = w.tokens := by
  cases x <;> rfl

@[simp] theorem clock_enact (k : Nat) (c : Caller) (r : Advance σ) :
    (w.enact k c r).clock = w.clock := by
  simp [enact]

@[simp] theorem timer_enact (k : Nat) (c : Caller) (r : Advance σ) :
    (w.enact k c r).timer = w.timer := by
  simp [enact]

@[simp] theorem tokens_enact (k : Nat) (c : Caller) (r : Advance σ) :
    (w.enact k c r).tokens = w.tokens.cancelIf c.token r.setsToken := by
  simp [enact]

@[simp] theorem clock_abandon (call : Nat) : (w.abandon call).clock = w.clock := by
  rw [abandon]
  split <;> rfl

@[simp] theorem timer_abandon (call : Nat) : (w.abandon call).timer = w.timer := by
  rw [abandon]
  split <;> rfl

@[simp] theorem clock_submit (delay : Duration) (c : Caller) :
    (w.submit delay c).clock = w.clock := by
  rw [submit]
  split
  · rfl
  · simp

@[simp] theorem closed_submit (delay : Duration) (c : Caller) :
    (w.submit delay c).timer.closed = w.timer.closed := by
  rw [submit, Timer.schedule]
  split
  · next h =>
    split at h
    · cases h
    · cases h
      rfl
  · simp

@[simp] theorem attempts_abandon (call : Nat) : (w.abandon call).attempts = w.attempts := by
  rw [abandon]
  split <;> rfl

@[simp] theorem attempts_submit (delay : Duration) (c : Caller) :
    (w.submit delay c).attempts = w.attempts := by
  rw [submit]
  split
  · rfl
  · simp

/-! ## Moves -/

variable {w} {w' : Crowd σ} {client : Client σ}

/-- The thread of a call starts it once. A call with a blank credential is refused, and any other
begins its first attempt. -/
theorem start?_eq_some {j : Nat} (h : w.start? j = some w') :
    ∃ s, w.seats[j]? = some s ∧ s.started = false ∧
      ((Text.isAllBlank s.order.authorization = true ∧
        w' = w.act j { s with
          started := true
          result := some (.error (.plain Bench.blankAuthorization)) } []) ∨
      (Text.isAllBlank s.order.authorization = false ∧
        w' = (w.act j { s with started := true } []).begin (s.caller j) false)) := by
  rw [start?] at h
  cases hs : w.seats[j]? with
  | none => simp [hs] at h
  | some s =>
  cases idle : s.started with
  | true => simp [hs, idle] at h
  | false =>
  refine ⟨s, rfl, idle, ?_⟩
  cases blank : Text.isAllBlank s.order.authorization with
  | true =>
    simp only [hs, idle, blank, Bool.false_eq_true, if_false, if_true, Option.some.injEq] at h
    exact .inl ⟨rfl, h.symm⟩
  | false =>
    simp only [hs, idle, blank, Bool.false_eq_true, if_false, Option.some.injEq] at h
    exact .inr ⟨rfl, h.symm⟩

/-- An attempt goes on by a step, and the task that it hands over goes to the timer. -/
theorem advance?_eq_some {k : Nat} {way : Handover} (h : w.advance? client k way = some w') :
    ∃ a s r, w.attempts[k]? = some a ∧ w.seats[a.caller.cell]? = some s ∧
      a.advance client (w.tokens.isCancelled a.caller.token) w.clock way s = r ∧
      ((r.task = none ∧ w' = w.enact k a.caller r) ∨
      ∃ delay, way = .keep ∧ r.task = some (delay, a.caller.next) ∧
        w' = (w.enact k a.caller r).submit delay a.caller.next) := by
  rw [advance?] at h
  cases ha : w.attempts[k]? with
  | none => simp [ha] at h
  | some a =>
  cases hs : w.seats[a.caller.cell]? with
  | none => simp [ha, hs] at h
  | some s =>
  simp only [ha, hs] at h
  generalize hr : a.advance client (w.tokens.isCancelled a.caller.token) w.clock way s = r at h
  refine ⟨a, s, r, rfl, hs, hr, ?_⟩
  cases ht : r.task with
  | none =>
    simp only [ht, Option.some.injEq] at h
    exact .inl ⟨rfl, h.symm⟩
  | some t =>
    obtain ⟨delay, c⟩ := t
    obtain ⟨keep, rfl, -, -⟩ := Attempt.advance_of_task (hr ▸ ht)
    simp only [ht, Option.some.injEq] at h
    exact .inr ⟨delay, keep, rfl, h.symm⟩

/-- A worker runs the first of the tasks that are kept, and only when it is due. -/
theorem run?_of_work? (h : w.work? = some w') :
    w.run? 0 = some w' ∧ ∀ e, w.timer.queue[0]? = some e → e.due ≤ w.clock := by
  rw [work?, Option.ite_none_left_eq_some, Option.map_eq_some_iff] at h
  obtain ⟨-, ⟨e, t⟩, start, rfl⟩ := h
  obtain ⟨-, due, queue, timer⟩ := Timer.start?_eq_some start
  constructor
  · rw [timer]
    simp [run?, queue, Timer.remove]
  · intro e' he
    rw [queue, List.getElem?_cons_zero, Option.some.injEq] at he
    exact he ▸ due

/-- A thread looks into the cell of its call while it waits. -/
theorem poll?_eq_some {j : Nat} (h : w.poll? j = some w') :
    ∃ s, w.seats[j]? = some s ∧ s.waiting ≠ none ∧ s.result = none ∧
      w' = w.act j (s.look (w.tokens.isCancelled s.token)) [] := by
  rw [poll?] at h
  cases hs : w.seats[j]? with
  | none => simp [hs] at h
  | some s =>
  simp only [hs, Option.ite_none_left_eq_some, Option.some.injEq, Bool.or_eq_true, not_or,
    Bool.not_eq_true, Option.isSome_eq_false_iff, Option.isNone_iff_eq_none] at h
  obtain ⟨⟨waits, pending⟩, rfl⟩ := h
  exact ⟨s, rfl, waits, pending, rfl⟩

/-- What a move does apart from what the calls see. The clock does not go back, at most one token is
set, and the timer stays open unless it is closed. -/
theorem frame_move {m : Move} (h : w.move client m = some w') :
    w.clock ≤ w'.clock ∧ (∃ t p, w'.tokens = w.tokens.cancelIf t p) ∧
      (m.timely = true → w'.timer.closed = w.timer.closed) := by
  have same : ∃ t p, w.tokens = w.tokens.cancelIf t p := ⟨0, false, rfl⟩
  cases m with
  | start call =>
    obtain ⟨s, -, -, ⟨-, rfl⟩ | ⟨-, rfl⟩⟩ := start?_eq_some h
    · exact ⟨Nat.le_refl _, same, fun _ => rfl⟩
    · exact ⟨Nat.le_refl _, same, fun _ => rfl⟩
  | advance attempt way =>
    obtain ⟨a, s, r, -, -, -, ⟨-, rfl⟩ | ⟨delay, -, -, rfl⟩⟩ := advance?_eq_some h
    · exact ⟨by simp, ⟨_, _, tokens_enact ..⟩, by simp⟩
    · exact ⟨by simp, ⟨_, _, (tokens_submit ..).trans (tokens_enact ..)⟩, by simp⟩
  | work =>
    obtain ⟨run, -⟩ := run?_of_work? h
    obtain ⟨e, -, rfl⟩ := Option.map_eq_some_iff.1 run
    exact ⟨Nat.le_refl _, same, fun _ => rfl⟩
  | run place =>
    obtain ⟨e, -, rfl⟩ := Option.map_eq_some_iff.1 h
    exact ⟨Nat.le_refl _, same, fun _ => rfl⟩
  | drop place =>
    obtain ⟨e, -, rfl⟩ := Option.map_eq_some_iff.1 h
    exact ⟨by simp, ⟨0, false, tokens_abandon ..⟩, by simp [Timer.remove]⟩
  | close =>
    cases h
    exact ⟨Nat.le_refl _, same, fun timely => by cases timely⟩
  | poll call =>
    obtain ⟨s, -, -, -, rfl⟩ := poll?_eq_some h
    exact ⟨Nat.le_refl _, same, fun _ => rfl⟩
  | cancel token =>
    cases h
    exact ⟨Nat.le_refl _, ⟨token, true, rfl⟩, fun timely => by cases timely⟩
  | pass moment =>
    simp only [move, Option.ite_none_right_eq_some, Option.some.injEq] at h
    obtain ⟨later, rfl⟩ := h
    exact ⟨later, same, fun _ => rfl⟩

/-- A run that begins with a move. -/
theorem run_cons_eq_some {m : Move} {rest : List Move} (h : w.run client (m :: rest) = some w') :
    ∃ w₁, w.move client m = some w₁ ∧ w₁.run client rest = some w' :=
  Option.bind_eq_some_iff.1 h

/-- A run that goes on after another. -/
theorem run_append {w₁ : Crowd σ} {moves later : List Move} (h : w.run client moves = some w₁)
    (h' : w₁.run client later = some w') : w.run client (moves ++ later) = some w' := by
  rw [run, List.foldlM_append]
  exact Option.bind_eq_some_iff.2 ⟨w₁, h, h'⟩

/-- No run unsets a token. -/
theorem isCancelled_of_run {moves : List Move} (h : w.run client moves = some w') {t : TokenId}
    (set : w.tokens.isCancelled t = true) : w'.tokens.isCancelled t = true := by
  induction moves generalizing w with
  | nil =>
    cases h
    exact set
  | cons m rest ih =>
    obtain ⟨w₁, first, later⟩ := run_cons_eq_some h
    obtain ⟨-, ⟨_, _, tokens⟩, -⟩ := frame_move first
    refine ih later ?_
    rw [tokens]
    exact Tokens.isCancelled_cancelIf_of_isCancelled set

end Crowd

end WebCall.Call
