import WebCall.Proofs.Call.Reply

/-!
# Kinds of results

The last reply of a call decides of what kind its result is: a success, an expired token, a refused
credential, or a generic failure. Whoever refreshes tokens or asks for a new login acts on the kind,
so giving up, losing the caller and being cancelled never look like a refused credential; they are
generic, and of all generic failures only those of the transport have a cause.

An attempt that finds its token set as it begins counts as a failure of the transport, though it
sends nothing and no reply tells of it.

## Main definitions

* `ComesTo`: what a call can come to after its last reply.
* `ComesTo.eq_ok_iff`, `ComesTo.eq_tokenExpired_iff`, `ComesTo.eq_authorization_iff`,
  `ComesTo.cause_of_eq_api`: when it comes to which kind.
-/
namespace WebCall.Call

/-! ## Replies -/

/-- What an exchange comes to. -/
abbrev Exchanged := Except Http.TransportError Http.Response

/-- The reply of an event, if it is one of a reply that comes in. -/
def Event.exchanged? : Event → Option Exchanged
  | answered _ response => some (.ok response)
  | failed _ error => some (.error error)
  | _ => none

/-- The outcome that the end of an exchange decides; `none` where it asks for a wait. -/
def decided? (e : Exchanged) : Option Outcome := Reply.terminal? ⟨e, false, []⟩

/-- No reply came yet, or the last one asks for a wait. -/
def Undecided (last : Option Exchanged) : Prop := ∀ e, last = some e → decided? e = none

/-- What a call can come to after its last reply. `stopped` tells whether an attempt after it found
its token set. -/
inductive ComesTo (last : Option Exchanged) (stopped : Bool) : Outcome → Prop
  /-- The reply decides it. -/
  | decided {e : Exchanged} {outcome : Outcome} (reply : last = some e) (goes : stopped = false)
      (decides : decided? e = some outcome) : ComesTo last stopped outcome
  /-- The reply used up the budget. -/
  | exhausted {attempts : Nat} (replied : last ≠ none) (goes : stopped = false)
      (undecided : Undecided last) :
      ComesTo last stopped (.error (.plain (Call.exhausted attempts)))
  /-- The next attempt found its token set. -/
  | stopped (stops : stopped = true) (undecided : Undecided last) :
      ComesTo last stopped (.error (.ofTransport .interrupted))
  /-- The caller was lost before the next attempt. -/
  | abandoned (goes : stopped = false) (undecided : Undecided last) :
      ComesTo last stopped (.error (.plain Call.abandoned))

/-- Whether a response is handed to the caller, or its body is read for what went wrong. -/
def Telling (r : Http.Response) : Prop :=
  r.status ∈ [200, 201, 204, 304, 403] ∨ r.status ∈ [400, 404] ∨ r.status = 401

section Statuses

variable {r : Http.Response}

/-- A response of these statuses is handed to the caller. -/
theorem decided?_of_served (status : r.status ∈ [200, 201, 204, 304, 403]) :
    decided? (.ok r) = some (.ok r) := by
  simp only [decided?, Reply.terminal?, status, if_true]

/-- A refused request: the body says what went wrong. -/
theorem decided?_of_refused (status : r.status ∈ [400, 404]) :
    decided? (.ok r) = some (.error ((ErrorBody.ofText r.body).toError .plain)) := by
  simp only [List.mem_cons, List.not_mem_nil, or_false] at status
  rcases status with h | h <;> simp [decided?, Reply.terminal?, h]

/-- A refused credential: the body says whether the token expired. -/
theorem decided?_of_unauthorized (status : r.status = 401) :
    decided? (.ok r) = some (.error ((ErrorBody.ofText r.body).toError .authorization)) := by
  simp [decided?, Reply.terminal?, status]

/-- Other responses decide at most a generic failure, and that has no cause. -/
theorem decided?_of_not_telling (other : ¬ Telling r) {outcome : Outcome}
    (h : decided? (.ok r) = some outcome) : ∃ text, outcome = .error (.plain text) := by
  obtain ⟨unserved, unrefused, authorized⟩ : r.status ∉ [200, 201, 204, 304, 403] ∧
      r.status ∉ [400, 404] ∧ r.status ≠ 401 := by simpa only [Telling, not_or] using other
  simp only [decided?, Reply.terminal?, unserved, unrefused, authorized, if_false] at h
  by_cases busy : r.status ∈ [202, 503]
  · rw [if_pos busy] at h
    cases h
  rw [if_neg busy] at h
  by_cases limited : r.status = 429
  · rw [if_pos limited] at h
    cases wait : Retry.retryAfterSecs (r.field? retryAfterField) with
    | ok secs =>
      simp only [wait] at h
      cases h
    | error e =>
      simp only [wait, Option.some.injEq] at h
      exact ⟨_, h.symm⟩
  · rw [if_neg limited, Option.some.injEq] at h
    exact ⟨_, h.symm⟩

end Statuses

/-- No response decides a failure with a cause. -/
theorem cause_eq_none_of_decided? {r : Http.Response} {text : String} {cause : Option Cause}
    (h : decided? (.ok r) = some (.error (.api text cause))) : cause = none := by
  by_cases tells : Telling r
  · rcases tells with served | refused | unauthorized
    · rw [decided?_of_served served] at h
      cases h
    · rw [decided?_of_refused refused] at h
      cases body : ErrorBody.ofText r.body <;> rw [body] at h <;> cases h
      rfl
    · rw [decided?_of_unauthorized unauthorized] at h
      cases body : ErrorBody.ofText r.body <;> rw [body] at h <;> cases h
  · obtain ⟨text, eq⟩ := decided?_of_not_telling tells h
    cases eq
    rfl

theorem decided?_error (e : Http.TransportError) :
    decided? (.error e) = some (.error (.ofTransport e)) := rfl

namespace ComesTo

variable {last : Option Exchanged} {stopped : Bool} {outcome : Outcome}

/-- A reply that decides something decides the outcome. -/
theorem eq_of_decided? (h : ComesTo last stopped outcome) {e : Exchanged} {o : Outcome}
    (reply : last = some e) (decides : decided? e = some o) : outcome = o := by
  cases h with
  | decided reply' _ decides' =>
    obtain rfl := Option.some.inj (reply.symm.trans reply')
    exact Option.some.inj (decides'.symm.trans decides)
  | exhausted _ _ undecided | stopped _ undecided | abandoned _ undecided =>
    rw [undecided e reply] at decides
    cases decides

/-- Without a response that tells more, a call fails in a generic way. -/
theorem generic (h : ComesTo last stopped outcome)
    (untold : ∀ r, last = some (.ok r) → ¬ Telling r) :
    ∃ text cause, outcome = .error (.api text cause) := by
  cases h with
  | @decided e _ reply _ decides =>
    cases e with
    | ok r =>
      obtain ⟨text, rfl⟩ := decided?_of_not_telling (untold r reply) decides
      exact ⟨text, none, rfl⟩
    | error e =>
      obtain rfl := Option.some.inj ((decided?_error e).symm.trans decides)
      exact ⟨_, _, rfl⟩
  | exhausted => exact ⟨_, _, rfl⟩
  | stopped => exact ⟨_, _, rfl⟩
  | abandoned => exact ⟨_, _, rfl⟩

/-- What a call comes to: its last reply is a response that is handed to the caller, or one whose
body is read for what went wrong, or the call fails in a generic way. -/
theorem cases (h : ComesTo last stopped outcome) :
    (∃ r, last = some (.ok r) ∧
      ((r.status ∈ [200, 201, 204, 304, 403] ∧ outcome = .ok r) ∨
        (r.status ∈ [400, 404] ∧ outcome = .error ((ErrorBody.ofText r.body).toError .plain)) ∨
        (r.status = 401 ∧
          outcome = .error ((ErrorBody.ofText r.body).toError .authorization)))) ∨
      ∃ text cause, outcome = .error (.api text cause) := by
  by_cases told : ∃ r, last = some (.ok r) ∧ Telling r
  · obtain ⟨r, reply, tells⟩ := told
    refine .inl ⟨r, reply, ?_⟩
    rcases tells with served | refused | unauthorized
    · exact .inl ⟨served, h.eq_of_decided? reply (decided?_of_served served)⟩
    · exact .inr (.inl ⟨refused, h.eq_of_decided? reply (decided?_of_refused refused)⟩)
    · exact .inr (.inr ⟨unauthorized,
        h.eq_of_decided? reply (decided?_of_unauthorized unauthorized)⟩)
  · exact .inr (h.generic fun r reply tells => told ⟨r, reply, tells⟩)

/-- The success of a call is its last response, as it came. -/
theorem eq_ok_iff (h : ComesTo last stopped outcome) (r : Http.Response) :
    outcome = .ok r ↔ last = some (.ok r) ∧ r.status ∈ [200, 201, 204, 304, 403] := by
  constructor
  · rintro rfl
    rcases h.cases with ⟨r', reply, ⟨status, eq⟩ | ⟨-, eq⟩ | ⟨-, eq⟩⟩ | ⟨_, _, eq⟩
    · cases eq
      exact ⟨reply, status⟩
    all_goals cases eq
  · rintro ⟨reply, status⟩
    exact h.eq_of_decided? reply (decided?_of_served status)

/-- A token counts as expired when the body of a refusal says so. -/
theorem eq_tokenExpired_iff (h : ComesTo last stopped outcome) (text : String) :
    outcome = .error (.tokenExpired text) ↔
      ∃ r, last = some (.ok r) ∧ r.status ∈ [400, 401, 404] ∧
        ErrorBody.ofText r.body = .tokenExpired text := by
  constructor
  · rintro rfl
    rcases h.cases with ⟨r, reply, ⟨-, eq⟩ | ⟨status, eq⟩ | ⟨status, eq⟩⟩ | ⟨_, _, eq⟩
    · cases eq
    · refine ⟨r, reply, by grind, ?_⟩
      cases body : ErrorBody.ofText r.body <;> rw [body] at eq <;> cases eq
      rfl
    · refine ⟨r, reply, by grind, ?_⟩
      cases body : ErrorBody.ofText r.body <;> rw [body] at eq <;> cases eq
      rfl
    · cases eq
  · rintro ⟨r, reply, status, body⟩
    by_cases unauthorized : r.status = 401
    · rw [h.eq_of_decided? reply (decided?_of_unauthorized unauthorized), body]
      rfl
    · have refused : r.status ∈ [400, 404] := by grind
      rw [h.eq_of_decided? reply (decided?_of_refused refused), body]
      rfl

/-- A credential counts as refused when a response says so that is not about expiry: a refusal of
the credential itself, or one whose body is that of the authorization service. -/
theorem eq_authorization_iff (h : ComesTo last stopped outcome) (text : String) :
    outcome = .error (.authorization text) ↔
      ∃ r, last = some (.ok r) ∧
        ((r.status = 401 ∧ ErrorBody.ofText r.body ∈ [.message text, .authorization text]) ∨
          (r.status ∈ [400, 404] ∧ ErrorBody.ofText r.body = .authorization text)) := by
  constructor
  · rintro rfl
    rcases h.cases with ⟨r, reply, ⟨-, eq⟩ | ⟨status, eq⟩ | ⟨status, eq⟩⟩ | ⟨_, _, eq⟩
    · cases eq
    · refine ⟨r, reply, .inr ⟨status, ?_⟩⟩
      cases body : ErrorBody.ofText r.body <;> rw [body] at eq <;> cases eq
      rfl
    · refine ⟨r, reply, .inl ⟨status, ?_⟩⟩
      cases body : ErrorBody.ofText r.body <;> rw [body] at eq <;> cases eq <;> simp
    · cases eq
  · rintro ⟨r, reply, ⟨unauthorized, body⟩ | ⟨refused, body⟩⟩
    · rw [h.eq_of_decided? reply (decided?_of_unauthorized unauthorized)]
      simp only [List.mem_cons, List.not_mem_nil, or_false] at body
      rcases body with body | body <;> rw [body] <;> rfl
    · rw [h.eq_of_decided? reply (decided?_of_refused refused), body]
      rfl

/-- A generic failure has a cause exactly when the transport failed, and the text of the cause is
that of the failure. -/
theorem cause_of_eq_api (h : ComesTo last stopped outcome) {text : String} {cause : Option Cause}
    (eq : outcome = .error (.api text cause)) :
    (cause.isSome = true ↔ (∃ e, last = some (.error e)) ∨ stopped = true) ∧
      ∀ x, cause = some x → x.message = text ∧
        ∃ e, x = .transport e ∧ (last = some (.error e) ∨ e = .interrupted) := by
  have unfailed (undecided : Undecided last) (e : Http.TransportError) : last ≠ some (.error e) := by
    intro reply
    cases undecided _ reply
  cases h with
  | @decided e _ reply goes decides =>
    subst eq
    cases e with
    | ok r =>
      obtain rfl := cause_eq_none_of_decided? decides
      exact ⟨by simp [reply, goes], nofun⟩
    | error e =>
      cases decides
      refine ⟨by simp [reply], ?_⟩
      rintro _ ⟨⟩
      exact ⟨rfl, e, rfl, .inl reply⟩
  | exhausted _ goes undecided =>
    cases eq
    exact ⟨by simp [unfailed undecided, goes], nofun⟩
  | stopped stops undecided =>
    cases eq
    refine ⟨by simp [stops], ?_⟩
    rintro _ ⟨⟩
    exact ⟨rfl, _, rfl, .inr rfl⟩
  | abandoned goes undecided =>
    cases eq
    exact ⟨by simp [unfailed undecided, goes], nofun⟩

end ComesTo

end WebCall.Call
