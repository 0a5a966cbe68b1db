import WebCall.Call.Caller

/-!
# What a reply means

A reply either asks for another attempt after a wait, or ends its call with an outcome of its own.
Which of the two it does, and the outcome, depend on the reply alone; only the length of the wait
depends on the policy. An attempt comes to what its reply means, except that the last attempt of the
budget gives up where it would have waited.

## Main definitions

* `Reply.wait?`: the wait that a reply asks for.
* `Reply.terminal?`: the outcome that a reply ends its call with.
-/
namespace WebCall.Call

namespace Reply

/-- The wait that a reply asks for. A busy server is given the time that the policy sets, whatever
its fields say; a server that limits the rate names its own time, up to the cap of the policy. -/
def wait? (policy : Retry.Policy) (r : Reply) : Option Duration :=
  match r.outcome with
  | .error _ => none
  | .ok response =>
    if response.status = 202 ∨ response.status = 503 then some policy.busyDelay
    else if response.status = 429 then
      match Retry.retryAfterSecs (response.field? retryAfterField) with
      | .error _ => none
      | .ok secs =>
        match policy.maxRetryAfter with
        | some cap => some ⟨min (secs * Duration.perSec) cap.nanos⟩
        | none => some ⟨secs * Duration.perSec⟩
    else none

/-- The outcome that a reply ends its call with; `none` for a reply that asks for a wait. -/
def terminal? (r : Reply) : Option Outcome :=
  match r.outcome with
  | .error e => some (.error (.ofTransport e))
  | .ok response =>
    let body := ErrorBody.ofText response.body
    if response.status ∈ [200, 201, 204, 304, 403] then some (.ok response)
    else if response.status ∈ [202, 503] then none
    else if response.status ∈ [400, 404] then some (.error (body.toError .plain))
    else if response.status = 401 then some (.error (body.toError .authorization))
    else if response.status = 429 then
      match Retry.retryAfterSecs (response.field? retryAfterField) with
      | .ok _ => none
      | .error e => some (.error (.plain e.message))
    else some (.error (.plain s!"Web API returned with error status: {response.status}"))

/-- The verdict on a response is the outcome that it ends its call with, or the wait that it asks
for. -/
theorem judge_eq_done_or_retry (policy : Retry.Policy) {response : Http.Response} {r : Reply}
    (hr : r.outcome = .ok response) :
    (∃ outcome, judge policy response = .done outcome ∧ r.terminal? = some outcome ∧
      r.wait? policy = none) ∨
    (∃ delay, judge policy response = .retry delay ∧ r.terminal? = none ∧
      r.wait? policy = some delay) := by
  simp only [judge, terminal?, wait?, hr, Retry.StatusClass.ofCode]
  by_cases served : response.status ∈ [200, 201, 204, 304]
  · simp only [List.mem_cons, List.not_mem_nil, or_false] at served
    rcases served with h | h | h | h <;> simp [h]
  by_cases busy : response.status ∈ [202, 503]
  · simp only [List.mem_cons, List.not_mem_nil, or_false] at busy
    rcases busy with h | h <;> simp [h]
  by_cases refused : response.status ∈ [400, 401, 403, 404]
  · simp only [List.mem_cons, List.not_mem_nil, or_false] at refused
    rcases refused with h | h | h | h <;> simp [h]
  simp only [List.mem_cons, List.not_mem_nil, or_false, not_or] at served busy refused
  by_cases limited : response.status = 429
  · cases Retry.retryAfterSecs (response.field? retryAfterField) with
    | error e => simp [limited]
    | ok secs =>
      cases hcap : policy.maxRetryAfter <;>
        simp [limited, Retry.Policy.rateLimitDelay, Duration.ofSecs, Duration.least_eq, hcap]
  · simp [served, busy, refused, limited]

/-- A reply that asks for no wait ends its call. -/
theorem wait?_eq_none_iff {policy : Retry.Policy} {r : Reply} :
    r.wait? policy = none ↔ ∃ outcome, r.terminal? = some outcome := by
  cases hr : r.outcome with
  | error e => simp [wait?, terminal?, hr]
  | ok response =>
    rcases judge_eq_done_or_retry policy hr with ⟨o, -, ht, hw⟩ | ⟨d, -, ht, hw⟩ <;> simp [ht, hw]

end Reply

namespace Caller

variable {c : Caller} {r : Reply}

/-- An attempt whose reply ends the call comes to that. -/
theorem ending_of_terminal {outcome : Outcome} (h : r.terminal? = some outcome) :
    c.ending r.outcome = .resolve outcome := by
  cases hr : r.outcome with
  | error e =>
    simp only [Reply.terminal?, hr, Option.some.injEq] at h
    simp [ending, h]
  | ok response =>
    rcases Reply.judge_eq_done_or_retry c.order.policy hr with ⟨o, hj, ht, -⟩ | ⟨d, -, ht, -⟩
    · rw [ht, Option.some.injEq] at h
      simp [ending, hj, h]
    · rw [ht] at h
      cases h

/-- An attempt whose reply asks for a wait is tried again while the budget lasts, and else gives
up. -/
theorem ending_of_wait {delay : Duration} (h : r.wait? c.order.policy = some delay) :
    c.ending r.outcome =
      if c.order.policy.maxAttempts.toNat ≤ c.attempts + 1 then
        .resolve (.error (.plain (exhausted (c.attempts + 1))))
      else .again delay := by
  cases hr : r.outcome with
  | error e => simp [Reply.wait?, hr] at h
  | ok response =>
    rcases Reply.judge_eq_done_or_retry c.order.policy hr with ⟨o, -, -, hw⟩ | ⟨d, hj, -, hw⟩
    · rw [hw] at h
      cases h
    · rw [hw, Option.some.injEq] at h
      by_cases used : c.order.policy.maxAttempts.toNat ≤ c.attempts + 1 <;>
        simp [ending, hj, h, Retry.Policy.decide, used]

/-- An attempt is tried again exactly when its reply asks for a wait and the budget lasts. -/
theorem ending_eq_again_iff {delay : Duration} :
    c.ending r.outcome = .again delay ↔
      r.wait? c.order.policy = some delay ∧ c.attempts + 1 < c.order.policy.maxAttempts.toNat := by
  cases hw : r.wait? c.order.policy with
  | none =>
    obtain ⟨o, ho⟩ := Reply.wait?_eq_none_iff.1 hw
    simp [ending_of_terminal ho]
  | some d =>
    rw [ending_of_wait hw]
    split <;> simp <;> omega

end Caller

end WebCall.Call
