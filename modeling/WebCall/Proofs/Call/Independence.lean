import WebCall.Proofs.Call.Phases

/-!
# Independence of calls

Calls that share a timer do not notice each other. Each of them goes through its own phases,
whatever the order of the moves; so a call that has returned did what it does alone, and it waited
between its requests as long as it was told to. When all have returned, the timer has nothing left
to do.

## Main definitions

* `Crowd.Apart`: every call of a crowd is in one of its own phases. Every move of an open timer
  preserves this while no token is set.
-/
namespace WebCall.Call

variable {σ : Type} {client : Client σ}

namespace Order

variable {o : Order} {token : TokenId} {s₀ : σ}

/-- Every wait that was seen is one that the replies ask for. -/
theorem Seen.exists_wait {n m k : Nat} {es : List (Instant × Event)} (h : Seen client o s₀ n m es)
    (hk : k < m) : ∃ delay, o.waitAt? client s₀ k = some delay := by
  have inside : k < (timedWaits es).length := by rw [h.length_waits]; exact hk
  have at_k := congrArg (·[k]?) h.waits
  simp only [List.getElem?_map, List.getElem?_range hk, List.getElem?_eq_getElem inside,
    Option.map_some, Option.some.injEq] at at_k
  exact ⟨_, at_k.symm⟩

/-- The waits that were seen, in the order in which they were asked for. -/
theorem Seen.map_snd_timedWaits {n m : Nat} {es : List (Instant × Event)}
    (h : Seen client o s₀ n m es) :
    (timedWaits es).map (·.2) = (List.range m).filterMap (o.waitAt? client s₀) := by
  have same := congrArg (List.filterMap id) h.waits
  simpa [List.filterMap_map, Function.comp_def] using same

/-- A call that has returned did what it does alone. -/
theorem Phase.requestOwn_eq {i : Nat} {now : Instant} {v : View σ}
    (h : Phase client o token s₀ i now v) {s : Seat σ} {result : Outcome}
    (seat : v.seat = some s) (given : s.result = some result) :
    let alone := Bench.requestOwn client o [] { client := s₀ }
    alone.1 = some result ∧ alone.2.sent = (timedSends v.events).map (·.2) ∧
      alone.2.delays = (timedWaits v.events).map (·.2) := by
  intro alone
  have going : ∀ {s' : Seat σ}, v.seat = some s' → s'.result = none → False := by
    intro s' seat' none_
    obtain rfl := Option.some.inj (seat.symm.trans seat')
    rw [none_] at given
    cases given
  cases h with
  | idle seat' _ _ _ _ _ none_ | begun _ _ seat' _ _ none_ | sent _ _ seat' _ _ none_
  | ended _ _ seat' _ _ none_ | held _ seat' _ _ none_ => exact (going seat' none_).elim
  | refused seat' blank _ refused _ _ events =>
    obtain rfl := Option.some.inj (seat.symm.trans seat')
    have run : alone = (some (.error (.plain Bench.blankAuthorization)),
        { client := s₀, tokens := ⟨[false]⟩ }) := by
      simp only [alone, Bench.requestOwn, Bench.request, blank, if_true]
      rfl
    rw [run, events]
    exact ⟨refused.symm.trans given, rfl, rfl⟩
  | done j seat' along last _ outcome _ _ seen =>
    obtain rfl := Option.some.inj (seat.symm.trans seat')
    have taken : o.lastOutcome client s₀ j = result := by
      rcases outcome with ⟨-, none_⟩ | ⟨-, some_⟩
      · exact (going seat none_).elim
      · exact Option.some.inj (some_.symm.trans given)
    have on : ∀ k < j, o.GoesOn client s₀ [] k := by
      intro k hk
      exact ⟨seen.exists_wait hk, along.calm k (Nat.lt_succ_of_lt hk), rfl⟩
    have off : ¬ o.GoesOn client s₀ [] j := by
      rintro ⟨⟨delay, hd⟩, -⟩
      rw [last] at hd
      cases hd
    have made : Tokens.Made ⟨[false]⟩ 0 := Nat.zero_lt_one
    have run : Bench.Finished client o 0 { client := s₀, tokens := ⟨[false]⟩ } [] j alone :=
      Bench.request_of_not_goesOn client 0 along.credential made rfl on off
    refine ⟨?_, ?_, ?_⟩
    · rw [run.result, Order.resultAt, last, ← taken]
    · rw [run.sent, seen.sends]
      rfl
    · rw [run.delays, seen.map_snd_timedWaits, List.range_succ, List.filterMap_append]
      simp [last, Bench.delays]

/-- In every phase a call has waited as long as it was told to. -/
theorem Phase.paced {i : Nat} {now : Instant} {v : View σ} (h : Phase client o token s₀ i now v) :
    Paced (timedSends v.events) (timedWaits v.events) := by
  cases h with
  | idle _ _ _ _ _ _ _ _ _ events | refused _ _ _ _ _ _ events =>
    rw [events]
    exact (Seen.nil : Seen client o s₀ 0 0 []).paced
  | begun _ _ _ _ _ _ _ _ seen | sent _ _ _ _ _ _ _ _ seen | ended _ _ _ _ _ _ _ _ seen
  | held _ _ _ _ _ _ _ _ seen | done _ _ _ _ _ _ _ _ seen => exact seen.paced

/-- A call that has returned has no task. -/
theorem Phase.tasks_eq_nil {i : Nat} {now : Instant} {v : View σ}
    (h : Phase client o token s₀ i now v)
    (returned : ∀ s, v.seat = some s → s.result.isSome = true) : v.tasks = [] := by
  cases h with
  | idle _ _ _ _ _ _ _ _ tasks | refused _ _ _ _ _ tasks | begun _ _ _ _ _ _ _ tasks
  | sent _ _ _ _ _ _ _ tasks | ended _ _ _ _ _ _ _ tasks | done _ _ _ _ _ _ _ tasks => exact tasks
  | held j seat along cell result =>
    have given := returned _ seat
    rw [result] at given
    cases given

end Order

namespace Crowd

variable {w w' : Crowd σ} {calls : List (Order × σ)}

/-- Every call of a crowd is in one of its own phases, and nothing goes on for a call that the
crowd does not have. -/
structure Apart (client : Client σ) (calls : List (Order × σ)) (w : Crowd σ) : Prop where
  present : ∀ i (c : Order × σ), calls[i]? = some c → c.1.Phase client i c.2 i w.clock (w.view i)
  absent : ∀ i, calls[i]? = none →
    (w.view i).seat = none ∧ (w.view i).tasks = [] ∧ (w.view i).events = []
  made : ∀ i c, calls[i]? = some c → w.tokens.Made i
  closed : w.timer.closed = false

theorem apart_gather (client : Client σ) (workers : Nat) (calls : List (Order × σ)) :
    Apart client calls (gather workers calls) := by
  have seat : ∀ i, ((gather workers calls).view i).seat =
      calls[i]?.map fun c => { order := c.1, token := i, client := c.2 } := by
    intro i
    simp only [view, gather, List.getElem?_zipWith]
    cases hc : calls[i]? with
    | none => simp
    | some c =>
      obtain ⟨inside, -⟩ := List.getElem?_eq_some_iff.1 hc
      simp [List.getElem?_range inside]
  refine ⟨?_, ?_, ?_, rfl⟩
  · intro i c hc
    have there := seat i
    rw [hc] at there
    exact .idle there rfl rfl rfl rfl rfl rfl rfl rfl rfl
  · intro i hc
    have there := seat i
    rw [hc] at there
    exact ⟨there, rfl, rfl⟩
  · intro i c hc
    obtain ⟨inside, -⟩ := List.getElem?_eq_some_iff.1 hc
    simpa [gather, Tokens.Made] using inside

/-- A call that the crowd does not have takes no step. -/
theorem not_step_of_absent {v v' : View σ} {before after : Tokens} {now : Instant} {free : Prop}
    {i : Nat} (seat : v.seat = none) (tasks : v.tasks = []) :
    ¬ View.Step client before after now free i v v' := by
  intro step
  cases step with
  | refuse seat' | start seat' | poll seat' | go seat' | hand seat' | lose seat' =>
    rw [seat] at seat'
    cases seat'
  | take tasks' | discard tasks' => simp [tasks] at tasks'

/-- Every move of an open timer keeps the calls apart. -/
theorem Apart.move (apart : Apart client calls w) {m : Move} (timely : m.timely = true)
    (h : w.move client m = some w') (unset : ∀ t, w.tokens.isCancelled t = false)
    (unset' : ∀ t, w'.tokens.isCancelled t = false) : Apart client calls w' := by
  obtain ⟨clock, ⟨t, p, tokens⟩, closed⟩ := frame_move h
  have bound : ¬ (m.timely = false ∨ w.timer.closed = true) := by
    simp [timely, apart.closed]
  refine ⟨?_, ?_, ?_, (closed timely).trans apart.closed⟩
  · intro i c hc
    refine Order.Phase.later ?_ clock
    rcases view_move h i with same | step
    · rw [same]
      exact apart.present i c hc
    · exact (apart.present i c hc).step step bound (apart.made i c hc) unset (unset' i)
  · intro i hc
    obtain ⟨seat, tasks, events⟩ := apart.absent i hc
    rcases view_move h i with same | step
    · rw [same]
      exact ⟨seat, tasks, events⟩
    · exact absurd step (not_step_of_absent seat tasks)
  · intro i c hc
    rw [tokens]
    exact Tokens.made_cancelIf.2 (apart.made i c hc)

/-- A token that is not set at the end of a run was not set at its beginning. -/
theorem unset_of_run {moves : List Move} (h : w.run client moves = some w')
    (unset : ∀ t, w'.tokens.isCancelled t = false) (t : TokenId) :
    w.tokens.isCancelled t = false := by
  by_contra set
  have still := isCancelled_of_run h (Bool.not_eq_false _ ▸ set)
  rw [unset t] at still
  cases still

/-- Every run of an open timer keeps the calls apart, as long as no token is set. -/
theorem Apart.run (apart : Apart client calls w) {moves : List Move}
    (timely : ∀ m ∈ moves, m.timely = true) (h : w.run client moves = some w')
    (unset : ∀ t, w'.tokens.isCancelled t = false) : Apart client calls w' := by
  induction moves generalizing w with
  | nil =>
    cases h
    exact apart
  | cons m rest ih =>
    have whole := h
    obtain ⟨w₁, first, later⟩ := run_cons_eq_some h
    have next := apart.move (timely m (List.mem_cons_self ..)) first (unset_of_run whole unset)
      (unset_of_run later unset)
    exact ih next (fun m' hm => timely m' (List.mem_cons_of_mem _ hm)) later

/-- While nobody plans to set a token, the next move is one of an open timer. -/
theorem timely_of_nextMove? {m : Move} (h : w.nextMove? [] = some m) : m.timely = true := by
  have unplanned : ∀ i, w.cancelAt? [] i = none := by
    intro i
    rw [cancelAt?]
    simp
  have quiet : (List.range w.seats.length).findSome? (fun i => (w.cancelAt? [] i).filter fun c =>
      decide (c.2 ≤ w.clock)) = none := by
    simp [unplanned]
  rw [nextMove?] at h
  dsimp only at h
  rw [quiet] at h
  split at h
  · cases h
    rfl
  · split at h
    · cases h
      rfl
    · split at h
      · cases h
        rfl
      · dsimp only at h
        split at h
        · cases h
          rfl
        · split at h
          · cases h
          · obtain ⟨moment, -, rfl⟩ := Option.map_eq_some_iff.1 h
            rfl

/-- A play is a run. -/
theorem exists_run_play (client : Client σ) (fuel : Nat) (w : Crowd σ) :
    ∃ moves : List Move, (∀ m ∈ moves, m.timely = true) ∧
      w.run client moves = some (play client [] fuel w) := by
  induction fuel generalizing w with
  | zero => exact ⟨[], by simp, rfl⟩
  | succ fuel ih =>
    rw [play]
    cases h : (w.nextMove? []).bind (w.move client) with
    | none => exact ⟨[], by simp, rfl⟩
    | some w₁ =>
      obtain ⟨m, next, first⟩ := Option.bind_eq_some_iff.1 h
      obtain ⟨moves, timely, rest⟩ := ih w₁
      refine ⟨m :: moves, ?_, ?_⟩
      · intro m' hm
        rcases List.mem_cons.1 hm with rfl | hm
        · exact timely_of_nextMove? next
        · exact timely m' hm
      · exact Option.bind_eq_some_iff.2 ⟨w₁, first, rest⟩

/-- A play keeps the calls apart, as long as no token is set. -/
theorem Apart.play (apart : Apart client calls w) (fuel : Nat)
    (unset : ∀ t, (Crowd.play client [] fuel w).tokens.isCancelled t = false) :
    Apart client calls (Crowd.play client [] fuel w) := by
  obtain ⟨moves, timely, run⟩ := exists_run_play client fuel w
  exact apart.run timely run unset

/-- The requests that a call sent. -/
theorem sentBy_eq (w : Crowd σ) (i : Nat) :
    w.sentBy i = (timedSends (w.eventsOf i)).map (·.2) :=
  (map_snd_timedSends _).symm

/-- Independent calls do not interfere. Take calls with tokens of their own over one timer with any
number of workers, and any order of their moves in which no token is set. A call that has returned
has the result, the requests and the delays that it has alone, whether it runs on one thread or over
a timer of its own. A request after a wait is sent no earlier than the delay, up to a hundred years,
after the moment at which the delay was scheduled. When all calls have returned, the timer is
empty. -/
theorem run_independent (workers : Nat) (calls : List (Order × σ)) {moves : List Move}
    (timely : ∀ m ∈ moves, m.timely = true)
    (h : (gather workers calls).run client moves = some w)
    (unset : ∀ t, w.tokens.isCancelled t = false) :
    (∀ (i : Nat) (order : Order) (s : σ) (seat : Seat σ) (result : Outcome),
      calls[i]? = some (order, s) → w.seats[i]? = some seat → seat.result = some result →
      let alone := Bench.requestOwn client order [] { client := s }
      (alone.1 = some result ∧ alone.2.sent = w.sentBy i ∧
        alone.2.delays = (timedWaits (w.eventsOf i)).map (·.2)) ∧
      ∀ (workers' : Nat) (moves' : List Move) (w' : Crowd σ) (seat' : Seat σ) (result' : Outcome),
        (∀ m ∈ moves', m.timely = true) →
        (gather workers' [(order, s)]).run client moves' = some w' →
        (∀ t, w'.tokens.isCancelled t = false) → w'.seats[0]? = some seat' →
        seat'.result = some result' →
        result' = result ∧ w'.sentBy 0 = w.sentBy i ∧
          (timedWaits (w'.eventsOf 0)).map (·.2) = (timedWaits (w.eventsOf i)).map (·.2)) ∧
    (∀ (i k : Nat) (t t' : Instant) (delay : Duration) (q : Sent),
      (timedWaits (w.eventsOf i))[k]? = some (t, delay) →
      (timedSends (w.eventsOf i))[k + 1]? = some (t', q) →
      t + min delay.nanos Timer.farFuture.nanos ≤ Timer.clockLimit →
      t + min delay.nanos Timer.farFuture.nanos ≤ t') ∧
    ((∀ seat ∈ w.seats, seat.result.isSome = true) → w.timer.queue = []) := by
  have apart : Apart client calls w := (apart_gather client workers calls).run timely h unset
  refine ⟨?_, ?_, ?_⟩
  · intro i order s seat result hc there given alone
    obtain ⟨outcome, sent, delays⟩ := (apart.present i _ hc).requestOwn_eq there given
    rw [sentBy_eq]
    refine ⟨⟨outcome, sent, delays⟩, ?_⟩
    intro workers' moves' w' seat' result' timely' h' unset' there' given'
    have apart' : Apart client [(order, s)] w' :=
      (apart_gather client workers' [(order, s)]).run timely' h' unset'
    obtain ⟨outcome', sent', delays'⟩ := (apart'.present 0 _ rfl).requestOwn_eq there' given'
    rw [sentBy_eq]
    exact ⟨Option.some.inj (outcome'.symm.trans outcome), sent'.symm.trans sent,
      delays'.symm.trans delays⟩
  · intro i k t t' delay q waited sent within
    refine Nat.le_trans (Timer.le_dueAt within) ?_
    cases hc : calls[i]? with
    | some c => exact (apart.present i c hc).paced k t delay t' q waited sent
    | none =>
      rw [show w.eventsOf i = [] from (apart.absent i hc).2.2] at sent
      cases sent
  · intro returned
    rw [List.eq_nil_iff_forall_not_mem]
    intro e he
    have listed : e ∈ (w.view e.task.cell).tasks := by
      simpa [view] using he
    have empty : (w.view e.task.cell).tasks = [] := by
      cases hc : calls[e.task.cell]? with
      | some c =>
        exact (apart.present _ c hc).tasks_eq_nil fun s hs =>
          returned s (List.mem_of_getElem? hs)
      | none => exact (apart.absent _ hc).2.1
    rw [empty] at listed
    cases listed

/-- Two calls whose moves alternate. The first is told to wait and goes on on the worker; both
return, and the first with what it gets alone. -/
theorem run_independent_alternating :
    let busy : Reply := ⟨.ok ⟨503, [], ""⟩, false, []⟩
    let served : Reply := ⟨.ok ⟨200, [], "done"⟩, false, []⟩
    let client : Client Nat := Client.ofReplies fun j => if j = 0 then busy else served
    let order : Order := ⟨fun _ => .new .get "http://host/", "Bearer t", {}⟩
    let go : Move := .advance 0 .keep
    let moves : List Move := [.start 0, go, .start 1, .advance 1 .keep, go, go,
      .pass (Duration.ofSecs 5).nanos, .work, go, .advance 1 .keep, go, go, .poll 1, go, go, go,
      .poll 0]
    ∃ w seat result, (gather 1 [(order, 0), (order, 1)]).run client moves = some w ∧
      w.seats[0]? = some seat ∧ seat.result = some result ∧
      (Bench.requestOwn client order [] { client := 0 }).1 = some result ∧ w.timer.queue = [] := by
  intro busy served client order go moves
  have outcome : ((gather 1 [(order, 0), (order, 1)]).run client moves).bind (fun w =>
      (w.seats[0]?).map fun seat =>
        (w.tokens, w.seats.all (·.result.isSome), seat.result.isSome)) =
      some (⟨[false, false]⟩, true, true) := by
    decide +kernel
  simp only [Option.bind_eq_some_iff, Option.map_eq_some_iff, Prod.mk.injEq] at outcome
  obtain ⟨w, run, seat, there, tokens, returned, given⟩ := outcome
  obtain ⟨result, given⟩ := Option.isSome_iff_exists.1 given
  have unset : ∀ t, w.tokens.isCancelled t = false := by
    intro t
    rw [tokens]
    rcases t with _ | _ | t <;> rfl
  have independent := run_independent 1 [(order, 0), (order, 1)] (by decide) run unset
  refine ⟨w, seat, result, run, there, given, ?_, ?_⟩
  · exact (independent.1 0 order 0 seat result rfl there given).1.1
  · exact independent.2.2 (List.all_eq_true.1 returned)

end Crowd

end WebCall.Call
