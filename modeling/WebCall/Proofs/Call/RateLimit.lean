import WebCall.Call.Steered
import WebCall.Proofs.Http.Fields
import WebCall.Proofs.Retry.RetryAfter

/-!
# Servers that limit the rate

What becomes of an attempt whose response says that there were too many requests. The first field of
the name Retry-After decides, and no other: if it asks for a wait, the next attempt is handed over
with that wait, cut to the longest that the policy allows; if it does not, or is not there, the call
fails at once.

## Main definitions

* `Bench.HandsOver`, `Bench.FailsWith`: the two things that an attempt can come to.
* `Bench.attempt_of_rateLimited`: which of the two it is.
-/
namespace WebCall.Call

open Retry (AsksFor retryAfterSecs_eq_ok_iff retryAfterSecs_eq_malformed)

variable {σ : Type}

/-! ## The answer -/

namespace Caller

variable {c : Caller} {response : Http.Response}

/-- Below the budget a response that limits the rate is followed by another attempt if its field
can be read, and ends the call if not. -/
theorem ending_of_rateLimited (limited : response.status = 429)
    (budget : c.attempts + 1 < c.order.policy.maxAttempts.toNat) :
    c.ending (.ok response) =
      match Retry.retryAfterSecs (response.field? retryAfterField) with
      | .ok secs => .again (c.order.policy.rateLimitDelay secs)
      | .error e => .resolve (.error (.plain e.message)) := by
  have verdict : Retry.StatusClass.ofCode response.status = .rateLimited := by
    rw [limited]
    rfl
  rw [ending, judge, verdict]
  cases Retry.retryAfterSecs (response.field? retryAfterField) with
  | ok secs =>
    have left : ¬ c.order.policy.maxAttempts.toNat ≤ c.attempts + 1 := Nat.not_le_of_lt budget
    simp only [Retry.Policy.decide, if_neg left]
  | error e => rfl

end Caller

theorem nanos_rateLimitDelay (policy : Retry.Policy) (secs : Nat) :
    (policy.rateLimitDelay secs).nanos = match policy.maxRetryAfter with
      | some cap => min (secs * 1000000000) cap.nanos
      | none => secs * 1000000000 := by
  unfold Retry.Policy.rateLimitDelay
  cases policy.maxRetryAfter with
  | some cap => exact congrArg Duration.nanos (Duration.least_eq _ cap)
  | none => rfl

/-! ## The attempt -/

namespace Bench

/-- An attempt only ever adds events. -/
theorem events_prefix_attempt (client : Client σ) (c : Caller) (handlings : List Handling)
    (b : Bench σ) : b.events <+: (b.attempt client c handlings).events := by
  fun_induction attempt client c handlings b with
  | case1 => exact List.prefix_append ..
  | case2 => exact (List.prefix_append ..).trans (List.prefix_append ..)
  | case3 c handlings b unset r delay again handling handed way ih =>
    exact ((List.prefix_append ..).trans (List.prefix_append ..)).trans ih
  | case4 c handlings b unset r delay again handling handed way =>
    have before : b.events <+: handed.events :=
      (List.prefix_append ..).trans (List.prefix_append ..)
    rcases handed.abandon_eq_or c.next with same | resolved
    · rw [same]
      exact before
    · rw [resolved]
      exact before.trans (List.prefix_append ..)
  | case5 => exact (List.prefix_append ..).trans (List.prefix_append ..)

variable (client : Client σ) (c : Caller) (handlings : List Handling) (b : Bench σ)

/-- After its answer the attempt hands the next one to the scheduler, with this delay. -/
def HandsOver (delay : Duration) : Prop :=
  ∃ later, (b.attempt client c handlings).events =
    (b.exchange client c).2.events ++ .scheduled (c.attempts + 1) delay :: later

/-- After its answer the attempt fails its call with a generic error, and nothing else happens. -/
structure FailsWith (text : String) : Prop where
  ends : b.attempt client c handlings =
    (b.exchange client c).2.resolve c.cell (.error (.plain text))
  delays : (b.attempt client c handlings).delays = b.delays
  result : c.cell < b.cells.length → (b.cellOf c.cell).resolved = false →
    ((b.attempt client c handlings).cellOf c.cell).slot = some (.error (.plain text))

variable {client c handlings b}

/-- An attempt that is to be made again hands over the next one. -/
theorem HandsOver.of_again {answer} {delay : Duration}
    (unset : b.tokens.isCancelled c.token = false) (reply : (b.exchange client c).1 = answer)
    (again : c.ending answer = .again delay) : HandsOver client c handlings b delay := by
  let handed := ((b.exchange client c).2.note [c.handoverEvent delay]).cancelIf c.token
    (handlings.headD .run).cancels
  suffices handed.events <+: (b.attempt client c handlings).events by
    obtain ⟨later, all⟩ := this
    refine ⟨later, ?_⟩
    rw [← all, List.append_cons]
    rfl
  rw [attempt_of_ending_again b client c unset (reply ▸ again)]
  dsimp only
  split
  · exact events_prefix_attempt ..
  · rcases handed.abandon_eq_or c.next with same | resolved
    · exact same ▸ List.prefix_rfl
    · rw [resolved]
      exact List.prefix_append ..
  · exact List.prefix_rfl

theorem HandsOver.unique {delay other : Duration} (h : HandsOver client c handlings b delay)
    (h' : HandsOver client c handlings b other) : delay = other := by
  obtain ⟨later, all⟩ := h
  obtain ⟨later', all'⟩ := h'
  rw [all] at all'
  cases List.append_cancel_left all'
  rfl

/-- An attempt whose answer is an error of the call fails it. -/
theorem FailsWith.of_resolve {answer} {text : String}
    (unset : b.tokens.isCancelled c.token = false) (reply : (b.exchange client c).1 = answer)
    (resolve : c.ending answer = .resolve (.error (.plain text))) :
    FailsWith client c handlings b text := by
  have ends : b.attempt client c handlings =
      (b.exchange client c).2.resolve c.cell (.error (.plain text)) :=
    attempt_of_ending_resolve b client c unset (reply ▸ resolve)
  refine ⟨ends, ?_, fun inside unresolved => ?_⟩
  · rw [ends, delays_resolve, delays_exchange]
  · have before : ((b.exchange client c).2.cellOf c.cell).resolved = false := unresolved
    have there : c.cell < (b.exchange client c).2.cells.length := inside
    rw [ends, cellOf_resolve_self _ there, ResultCell.resolve_of_unresolved before]

/-- An attempt that fails its call hands nothing over. -/
theorem FailsWith.not_handsOver {text : String} {delay : Duration}
    (h : FailsWith client c handlings b text) : ¬ HandsOver client c handlings b delay := by
  rintro ⟨later, all⟩
  rw [h.ends] at all
  have last := List.append_cancel_left all
  cases last

/-- Below the budget, an attempt whose response limits the rate is made again exactly if the first
field of the name Retry-After asks for a wait, and then after that wait or the longest that the
policy allows. In all other cases the call fails at once. -/
theorem attempt_of_rateLimited (client : Client σ) (c : Caller) (handlings : List Handling)
    (b : Bench σ) {response : Http.Response} (unset : b.tokens.isCancelled c.token = false)
    (budget : c.attempts + 1 < c.order.policy.maxAttempts.toNat)
    (reply : (b.exchange client c).1 = .ok response) (limited : response.status = 429) :
    (∀ delay, HandsOver client c handlings b delay ↔
      ∃ value secs, response.fields.First "Retry-After" value ∧ AsksFor value secs ∧
        delay.nanos = match c.order.policy.maxRetryAfter with
          | some cap => min (secs * 1000000000) cap.nanos
          | none => secs * 1000000000) ∧
    (∀ value, response.fields.First "Retry-After" value → (∀ secs, ¬ AsksFor value secs) →
      FailsWith client c handlings b s!"invalid Retry-After header: {Text.quoted value}") ∧
    ((∀ value, ¬ response.fields.First "Retry-After" value) →
      FailsWith client c handlings b "rate limited without a Retry-After header") := by
  have ending := c.ending_of_rateLimited limited budget
  have absent (none_ : ∀ value, ¬ response.fields.First retryAfterField value) :
      FailsWith client c handlings b "rate limited without a Retry-After header" := by
    have field : response.field? retryAfterField = none :=
      Option.eq_none_iff_forall_ne_some.2 fun value there =>
        none_ value (Http.Fields.get?_eq_some_iff.1 there)
    rw [field] at ending
    exact .of_resolve unset reply ending
  have refused {value : String} (first : response.fields.First retryAfterField value)
      (other : ∀ secs, ¬ AsksFor value secs) :
      FailsWith client c handlings b s!"invalid Retry-After header: {Text.quoted value}" := by
    rw [Http.Response.field?, Http.Fields.get?_eq_some_iff.2 first,
      retryAfterSecs_eq_malformed other] at ending
    exact .of_resolve unset reply ending
  have asked {value : String} {secs : Nat} (first : response.fields.First retryAfterField value)
      (asks : AsksFor value secs) :
      HandsOver client c handlings b (c.order.policy.rateLimitDelay secs) := by
    rw [Http.Response.field?, Http.Fields.get?_eq_some_iff.2 first,
      retryAfterSecs_eq_ok_iff.2 asks] at ending
    exact .of_again unset reply ending
  refine ⟨fun delay => ⟨fun handed => ?_, ?_⟩, fun value => refused, absent⟩
  · by_cases there : ∃ value, response.fields.First retryAfterField value
    · obtain ⟨value, first⟩ := there
      by_cases count : ∃ secs, AsksFor value secs
      · obtain ⟨secs, asks⟩ := count
        obtain rfl := handed.unique (asked first asks)
        exact ⟨value, secs, first, asks, nanos_rateLimitDelay ..⟩
      · exact absurd handed (refused first (not_exists.1 count)).not_handsOver
    · exact absurd handed (absent (not_exists.1 there)).not_handsOver
  · rintro ⟨value, secs, first, asks, nanos⟩
    have same : delay = c.order.policy.rateLimitDelay secs := by
      cases delay
      rw [← nanos_rateLimitDelay] at nanos
      exact congrArg Duration.mk nanos
    exact same ▸ asked first asks

/-- Two fields ask for a wait. The first one is meant, and its seven seconds are cut to five. -/
theorem attempt_of_rateLimited_first_of_two :
    let response : Http.Response :=
      ⟨429, [("Date", "today"), ("retry-AFTER", "\u2003+007 "), ("Retry-After", "3")], ""⟩
    let policy : Retry.Policy := { maxAttempts := 2, maxRetryAfter := some (.ofSecs 5) }
    let client : Client Nat := Client.ofReplies fun _ => ⟨.ok response, false, []⟩
    let c : Caller := ⟨⟨fun _ => .new .get "http://host/", "Bearer t", policy⟩, 0, 0, 0, 0⟩
    let b : Bench Nat := { client := 0, tokens := ⟨[false]⟩, cells := [{}] }
    b.tokens.isCancelled c.token = false ∧ c.attempts + 1 < c.order.policy.maxAttempts.toNat ∧
      (b.exchange client c).1 = .ok response ∧ response.status = 429 ∧
      HandsOver client c [] b (.ofSecs 5) := by
  intro response policy client c b
  have asks : AsksFor "\u2003+007 " 7 :=
    ⟨['\u2003'], ['+', '0', '0', '7'], [' '], rfl, List.all_eq_true.1 (by decide),
      List.all_eq_true.1 (by decide), by decide, ['+'], 2, by decide⟩
  have first : response.fields.First "Retry-After" "\u2003+007 " :=
    ⟨[("Date", "today")], "retry-AFTER", [("Retry-After", "3")], rfl, by decide, by decide⟩
  have reply : (b.exchange client c).1 = .ok response := rfl
  have both := attempt_of_rateLimited client c [] b rfl (by decide) reply rfl
  exact ⟨rfl, by decide, reply, rfl, (both.1 _).2 ⟨_, 7, first, asks, rfl⟩⟩

end Bench

end WebCall.Call
