import WebCall.Proofs.Call.Reasons

/-!
# Results of calls

A result that is stored before the thread of a call stops to wait is never lost: the thread gets it,
whatever happens meanwhile, even if its token is set. So what the thread gets is of the kind that
the last reply decides.

## Main definitions

* `Seat.Served`: a result is stored in time.
* `Crowd.run_result_kind`: the kinds of results.
-/
namespace WebCall.Call

variable {σ : Type}

/-- The result of a call is stored, and its thread has it or can still get it. -/
def Seat.Served (s : Seat σ) : Prop :=
  s.cell.resolved = true ∧ (s.result = none ∨ s.cell.slot = none)

namespace Seat.Served

variable {s s' : Seat σ}

/-- Nothing but the cell and the result matters of a seat. -/
theorem congr (h : s.Served) (cell : s'.cell = s.cell) (result : s'.result = s.result) :
    s'.Served := by
  rw [Served, cell, result]
  exact h

theorem leave (h : s.Served) (onWorker : Bool) (now : Instant) : (s.leave onWorker now).Served := by
  cases onWorker
  · exact h.congr rfl rfl
  · exact h

theorem abandon (h : s.Served) : s.abandon.1.Served := by
  rw [Seat.abandon_of_resolved h.1]
  exact h

/-- A step of an attempt does not touch a result that is stored. -/
theorem advance (h : s.Served) (client : Client σ) (cancelled : Bool) (now : Instant)
    (way : Handover) (a : Attempt) : (a.advance client cancelled now way s).seat.Served := by
  obtain ⟨c, stage, onWorker⟩ := a
  match stage with
  | .begun => cases cancelled <;> exact h
  | .sent => exact h.congr rfl rfl
  | .ended (.resolve outcome) =>
    refine h.congr ?_ rfl
    exact congrArg Prod.snd (ResultCell.resolve_of_resolved h.1 outcome)
  | .ended (.again _) =>
    cases way with
    | keep => exact h.leave _ _
    | run => exact h
    | drop => exact h.abandon.leave _ _
  | .closing => exact h.abandon.leave _ _

/-- The thread of the call takes the result out of its cell. -/
theorem look (h : s.Served) (cancelled : Bool) : (s.look cancelled).Served := by
  refine ⟨(ResultCell.resolved_round _ _).trans h.1, ?_⟩
  right
  cases slot : s.cell.slot with
  | none => simp [Seat.look, ResultCell.round_of_slot_eq_none slot, slot]
  | some outcome => simp [Seat.look, ResultCell.round_of_slot_eq_some slot]

end Seat.Served

namespace View

variable {v v' : View σ} {i : Nat}

/-- A call whose result is stored in time. -/
def Served (v : View σ) : Prop := ∃ s, v.seat = some s ∧ s.Served

namespace Served

theorem abandon (h : v.Served) (now : Instant) : (v.abandon now).Served := by
  obtain ⟨s, seat, served⟩ := h
  rw [View.abandon, seat]
  exact ⟨_, rfl, served.abandon⟩

/-- No step of a call takes a stored result away from its thread. -/
theorem step (h : v.Served) (custody : Custody v) {client : Client σ} {before after : Tokens}
    {now : Instant} {free : Prop} (step : View.Step client before after now free i v v') :
    v'.Served := by
  obtain ⟨s, at_, served⟩ := h
  have same {t : Seat σ} (seat : v.seat = some t) : t.Served := by
    obtain rfl := Option.some.inj (at_.symm.trans seat)
    exact served
  cases step with
  | refuse seat idle | start seat idle =>
    obtain ⟨unresolved, -⟩ := custody.of_idle seat idle
    cases unresolved.symm.trans (same seat).1
  | go seat _ _ advance => exact ⟨_, rfl, advance ▸ (same seat).advance ..⟩
  | hand seat _ advance => exact ⟨_, rfl, advance ▸ (same seat).advance ..⟩
  | lose seat _ _ advance => exact abandon ⟨_, rfl, advance ▸ (same seat).advance ..⟩ now
  | take => exact ⟨s, at_, served⟩
  | @discard e pre post tasks _ =>
    exact abandon (v := { v with tasks := pre ++ post }) ⟨s, at_, served⟩ now
  | poll seat => exact ⟨_, rfl, (same seat).look _⟩

end Served

end View

namespace Crowd

variable {w w₁ w' : Crowd σ} {client : Client σ} {i : Nat}

/-- No run takes a stored result away from its thread. -/
theorem served_of_run {moves : List Move} (h : w.run client moves = some w')
    (custody : ∀ j, (w.view j).Custody) (served : (w.view i).Served) : (w'.view i).Served := by
  induction moves generalizing w with
  | nil =>
    cases h
    exact served
  | cons m rest ih =>
    obtain ⟨w₁, first, later⟩ := run_cons_eq_some h
    refine ih later (custody_of_move first custody) ?_
    rcases view_move first i with same | step
    · rw [same]
      exact served
    · exact served.step (custody i) step

/-- The kinds of results. Whatever schedulers and clients do and whenever tokens are set, if the
result of a call is stored before its thread stops to wait, then what the thread gets depends on the
last reply.

It is a success exactly when this is a response with the status 200, 201, 204, 304 or 403, and then
it is this response. It is an expired token exactly when this is a response with the status 400, 401
or 404 and a body that says so. It is a refused credential exactly when this is a response with the
status 401 and any other body, or one with the status 400 or 404 and a body of the authorization
service. Every other failure is generic. It has a cause exactly when the last reply is a failure of
the transport, or an attempt after it found its token set, which counts as one; the cause is
this failure and its text is that of the result. -/
theorem run_result_kind (client : Client σ) (fresh : w.Fresh) {moves later : List Move}
    (h₁ : w.run client moves = some w₁) {s₁ : Seat σ} (hs₁ : w₁.seats[i]? = some s₁)
    (stored : s₁.cell.resolved = true) (waits : s₁.result = none)
    (h : w₁.run client later = some w') {s : Seat σ} (hs : w'.seats[i]? = some s)
    {outcome : Outcome} (returned : s.result = some outcome) :
    let last := (w'.view i).last?
    let stops := stopped client i w (moves ++ later)
    (∀ r, outcome = .ok r ↔ last = some (.ok r) ∧ r.status ∈ [200, 201, 204, 304, 403]) ∧
    (∀ text, outcome = .error (.tokenExpired text) ↔
      ∃ r, last = some (.ok r) ∧ r.status ∈ [400, 401, 404] ∧
        ErrorBody.ofText r.body = .tokenExpired text) ∧
    (∀ text, outcome = .error (.authorization text) ↔
      ∃ r, last = some (.ok r) ∧
        ((r.status = 401 ∧ ErrorBody.ofText r.body ∈ [.message text, .authorization text]) ∨
          (r.status ∈ [400, 404] ∧ ErrorBody.ofText r.body = .authorization text))) ∧
    ∀ text cause, outcome = .error (.api text cause) →
      (cause.isSome = true ↔ (∃ e, last = some (.error e)) ∨ stops = true) ∧
      ∀ x, cause = some x → x.message = text ∧
        ∃ e, x = .transport e ∧ (last = some (.error e) ∨ e = .interrupted) := by
  intro last stops
  have reasoned : (w'.view i).Reasoned stops := by
    have kept := reasoned_of_run (run_append h₁ h) fresh.custody (fresh.reasoned i)
    rwa [Bool.false_or] at kept
  have reason : ComesTo last stops outcome := by
    have served := served_of_run h (custody_of_run h₁ fresh.custody) ⟨s₁, hs₁, stored, .inl waits⟩
    obtain ⟨t, ht, resolved, taken⟩ := served
    obtain rfl := Option.some.inj (hs.symm.trans ht)
    have empty : s.cell.slot = none := by
      rcases taken with waiting | empty
      · cases waiting.symm.trans returned
      · exact empty
    obtain ⟨o, there, reason⟩ := (reasoned.seat s hs).stored resolved
    rw [empty, Option.none_or, returned, Option.some.injEq] at there
    exact there ▸ reason
  exact ⟨reason.eq_ok_iff, reason.eq_tokenExpired_iff, reason.eq_authorization_iff,
    fun _ _ => reason.cause_of_eq_api⟩

/-- Two calls. The token of the first is set while its second attempt is kept by the timer, and the
only reply to the second says that its token expired. -/
theorem run_result_kind_expired_beside_stopped :
    let busy : Reply := ⟨.ok ⟨503, [], ""⟩, false, []⟩
    let body := "\x7b\"error\": \x7b\"status\": 401, \"message\": \"The access token expired\"\x7d\x7d"
    let expired : Reply := ⟨.ok ⟨401, [], body⟩, false, []⟩
    let client : Client Nat := Client.ofReplies fun n => if n = 0 then busy else expired
    let order : Order := ⟨fun _ => .new .get "http://host/", "Bearer t", {}⟩
    let first : List Move := [.start 0, .advance 0 .keep, .advance 0 .keep, .advance 0 .keep,
      .start 1, .advance 0 .keep, .advance 0 .keep, .advance 0 .keep, .advance 0 .keep,
      .cancel 0, .run 0, .advance 0 .keep, .advance 0 .keep]
    let later : List Move := [.advance 0 .keep, .poll 0, .poll 1]
    ∃ w₁ w' s t, (gather 1 [(order, 0), (order, 1)]).run client first = some w₁ ∧
      w₁.run client later = some w' ∧ w'.seats[0]? = some s ∧ w'.seats[1]? = some t ∧
      s.result = some (.error (.ofTransport .interrupted)) ∧
      t.result = some (.error (.tokenExpired "The access token expired")) := by
  intro busy body expired client order first later
  let w := gather 1 [(order, 0), (order, 1)]
  have outcome : (w.run client first).bind (fun w₁ => (w₁.run client later).bind fun w' =>
      (w₁.seats[0]?).bind fun s => (w₁.seats[1]?).bind fun t =>
      (w'.seats[0]?).bind fun s' => (w'.seats[1]?).map fun t' =>
        ([s.cell.resolved, s.result.isSome, s'.result.isSome,
          t.cell.resolved, t.result.isSome, t'.result.isSome],
          [(w'.view 0).last?.bind Except.toOption, (w'.view 1).last?.bind Except.toOption])) =
      some ([true, false, true, true, false, true],
        [some ⟨503, [], ""⟩, some ⟨401, [], body⟩]) := by
    decide +kernel
  have stops : stopped client 0 w (first ++ later) = true := by decide +kernel
  simp only [Option.bind_eq_some_iff, Option.map_eq_some_iff, Prod.mk.injEq, List.cons.injEq,
    and_true, Option.isSome_eq_false_iff, Option.isNone_iff_eq_none, Option.isSome_iff_exists]
    at outcome
  obtain ⟨w₁, run, w', run', s, hs, t, ht, s', hs', t', ht',
    ⟨stored, waits, ⟨o, returned⟩, stored', waits', o', returned'⟩,
    ⟨e, last, value⟩, e', last', value'⟩ := outcome
  obtain rfl : e = .ok ⟨503, [], ""⟩ := by cases e <;> cases value; rfl
  obtain rfl : e' = .ok ⟨401, [], body⟩ := by cases e' <;> cases value'; rfl
  have fresh : w.Fresh := fresh_gather 1 [(order, 0), (order, 1)]
  have kind := run_result_kind client fresh run hs stored waits run' hs' returned
  have kind' := run_result_kind client fresh run ht stored' waits' run' ht' returned'
  refine ⟨w₁, w', s', t', run, run', hs', ht', ?_, ?_⟩
  · rw [returned]
    rw [last, stops] at kind
    obtain ⟨served, lapsed, refused, generic⟩ := kind
    cases o with
    | ok r =>
      obtain ⟨reply, status⟩ := (served r).1 rfl
      cases reply
      simp at status
    | error e =>
      cases e with
      | api text cause =>
        obtain ⟨caused, cause_eq⟩ := generic text cause rfl
        obtain ⟨x, rfl⟩ := Option.isSome_iff_exists.1 (caused.2 (.inr rfl))
        obtain ⟨rfl, e, rfl, reply | rfl⟩ := cause_eq x rfl
        · cases reply
        · rfl
      | authorization text =>
        obtain ⟨r, reply, status⟩ := (refused text).1 rfl
        cases reply
        simp at status
      | tokenExpired text =>
        obtain ⟨r, reply, status, -⟩ := (lapsed text).1 rfl
        cases reply
        simp at status
  · rw [returned']
    have meaning : ErrorBody.ofText body = .tokenExpired "The access token expired" := by
      decide +kernel
    exact congrArg some ((kind'.2.1 _).2 ⟨_, last', by simp, meaning⟩)

end Crowd

end WebCall.Call
