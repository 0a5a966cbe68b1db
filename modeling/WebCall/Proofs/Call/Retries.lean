import Mathlib.Data.List.Basic
import WebCall.Proofs.Call.Course

/-!
# Retries

A call under a scheduler that runs every task it is handed, with an endless list of replies and a
token that nobody else sets. Every reply that asks for a wait costs one attempt of the budget and is
otherwise forgotten; the first one that does not ends the call with its own outcome.
-/
namespace WebCall.Call

/-- A reply that asks for a wait sets no token by itself. -/
theorem Reply.setsToken_of_wait? {policy : Retry.Policy} {r : Reply} {delay : Duration}
    (h : r.wait? policy = some delay) : r.setsToken = r.cancels := by
  cases hr : r.outcome with
  | error e => simp [wait?, hr] at h
  | ok response => simp [setsToken, hr]

namespace Order

variable {o : Order} {replies : Nat → Reply} {i k : Nat} {delay : Nat → Duration}

/-- The waits of a call whose first replies all ask for one. -/
theorem filterMap_waitAt?_range (h : ∀ j < k, (replies (i + j)).wait? o.policy = some (delay j))
    (budget : k = 0 ∨ k < o.policy.maxAttempts.toNat) :
    (List.range k).filterMap (o.waitAt? (Client.ofReplies replies) i) =
      (List.range k).map delay := by
  rw [← List.filterMap_eq_map]
  refine List.filterMap_congr fun j hj => ?_
  have hlt : j < k := List.mem_range.1 hj
  have within : j + 1 < o.policy.maxAttempts.toNat := by omega
  simp [waitAt?, within, h j hlt]

/-- A call goes on after a reply that asks for a wait, while its budget lasts. -/
theorem goesOn_ofReplies (calm : ∀ j, (replies j).cancels = false)
    (h : ∀ j < k, (replies (i + j)).wait? o.policy = some (delay j))
    (budget : k = 0 ∨ k < o.policy.maxAttempts.toNat) :
    ∀ j < k, o.GoesOn (Client.ofReplies replies) i [] j := by
  intro j hj
  have within : j + 1 < o.policy.maxAttempts.toNat := by omega
  refine ⟨⟨delay j, by simp [waitAt?, within, h j hj]⟩, ?_, rfl⟩
  rw [replyAt_ofReplies, Reply.setsToken_of_wait? (h j hj), calm]

end Order

/-- A call with an endless list of replies. If the reply of number `k` is the first that asks for no
wait, and the budget reaches it, then `k + 1` requests are sent, the waits before it are asked for,
and its outcome is the result. If no reply of the whole budget is of this kind, the call gives up.
-/
theorem requestOwn_ofReplies (replies : Nat → Reply) (calm : ∀ j, (replies j).cancels = false)
    (order : Order) (credential : Text.isAllBlank order.authorization = false) (b : Bench Nat) :
    let n := max 1 order.policy.maxAttempts.toNat
    let reply := fun j => replies (b.client + j)
    let r := b.requestOwn (Client.ofReplies replies) order []
    (∀ (k : Nat) (delay : Nat → Duration), k < n →
      (∀ j < k, (reply j).wait? order.policy = some (delay j)) →
      (reply k).wait? order.policy = none →
      (∃ outcome, (reply k).terminal? = some outcome ∧ r.1 = some outcome) ∧
        r.2.builds = b.builds + (k + 1) ∧
        r.2.sent = b.sent ++ (List.range (k + 1)).map order.sentAt ∧
        r.2.delays = b.delays ++ (List.range k).map delay) ∧
    (∀ delay : Nat → Duration, (∀ j < n, (reply j).wait? order.policy = some (delay j)) →
      r.1 = some (.error (.plain s!"Could not reach the web API after {n} retries.")) ∧
        r.2.builds = b.builds + n ∧
        r.2.sent = b.sent ++ (List.range n).map order.sentAt ∧
        r.2.delays = b.delays ++ (List.range (n - 1)).map delay) := by
  intro n reply r
  have finished : ∀ {k : Nat} {delay : Nat → Duration}, k < n →
      (∀ j < k, (reply j).wait? order.policy = some (delay j)) →
      order.waitAt? (Client.ofReplies replies) b.client k = none →
      r.1 = some (order.lastOutcome (Client.ofReplies replies) b.client k) ∧
        r.2.builds = b.builds + (k + 1) ∧
        r.2.sent = b.sent ++ (List.range (k + 1)).map order.sentAt ∧
        r.2.delays = b.delays ++ (List.range k).map delay := by
    intro k delay hk waits last
    have budget : k = 0 ∨ k < order.policy.maxAttempts.toNat := by omega
    have off : ¬ order.GoesOn (Client.ofReplies replies) b.client [] k := by
      rintro ⟨⟨d, hd⟩, -⟩
      rw [last] at hd
      cases hd
    have h := Bench.request_of_not_goesOn (Client.ofReplies replies) b.tokens.create.1
      (b := { b with tokens := b.tokens.create.2 }) credential (Tokens.made_create _)
      (Tokens.isCancelled_create _) (Order.goesOn_ofReplies calm waits budget) off
    refine ⟨?_, h.builds, h.sent, ?_⟩
    · rw [show r.1 = _ from h.result, Order.resultAt, last]
    · rw [show r.2.delays = _ from h.delays, List.range_succ, List.filterMap_append,
        Order.filterMap_waitAt?_range waits budget]
      simp only [List.filterMap_cons, last, List.filterMap_nil, List.append_nil]
      rfl
  constructor
  · intro k delay hk waits terminal
    obtain ⟨outcome, ho⟩ := Reply.wait?_eq_none_iff.1 terminal
    obtain ⟨result, rest⟩ := finished hk waits (by simp [Order.waitAt?, reply, terminal])
    refine ⟨⟨outcome, ho, ?_⟩, rest⟩
    rw [result, Order.lastOutcome, Order.replyAt_ofReplies, ho]
  · intro delay waits
    have hn : n - 1 + 1 = n := by omega
    have used : ¬ n - 1 + 1 < order.policy.maxAttempts.toNat := by omega
    obtain ⟨result, builds, sent, delays⟩ := finished (k := n - 1) (by omega)
      (fun j hj => waits j (by omega)) (by simp [Order.waitAt?, used])
    rw [hn] at builds sent
    refine ⟨?_, builds, sent, delays⟩
    have ends : (reply (n - 1)).terminal? = none := by
      cases ht : (reply (n - 1)).terminal? with
      | none => rfl
      | some outcome =>
        have ends : (reply (n - 1)).wait? order.policy = none :=
          Reply.wait?_eq_none_iff.2 ⟨outcome, ht⟩
        rw [waits (n - 1) (by omega)] at ends
        cases ends
    rw [result, Order.lastOutcome, Order.replyAt_ofReplies, ends, hn]
    rfl

/-- A busy server, then one that limits the rate, then one that serves: three requests and two
waits. -/
theorem requestOwn_ofReplies_served_third :
    let busy : Reply := ⟨.ok ⟨503, [], ""⟩, false, []⟩
    let limited : Reply := ⟨.ok ⟨429, [("retry-after", " 3 ")], ""⟩, false, []⟩
    let served : Reply := ⟨.ok ⟨200, [], "done"⟩, false, []⟩
    let replies : Nat → Reply := fun j => if j = 0 then busy else if j = 1 then limited else served
    let order : Order := ⟨fun _ => .new .get "http://host/", "Bearer t", {}⟩
    let r := Bench.requestOwn (Client.ofReplies replies) order [] { client := 0 }
    (∀ j, (replies j).cancels = false) ∧ Text.isAllBlank order.authorization = false ∧
      r.1 = some (.ok ⟨200, [], "done"⟩) ∧ r.2.delays = [.ofSecs 5, .ofSecs 3] ∧
      r.2.sent.length = 3 := by
  intro busy limited served replies order r
  have calm : ∀ j, (replies j).cancels = false := by
    intro j
    dsimp only [replies]
    split
    · rfl
    · split <;> rfl
  have credential : Text.isAllBlank order.authorization = false := by decide
  have waits : ∀ j < 2, (replies (0 + j)).wait? order.policy =
      some (if j = 0 then .ofSecs 5 else .ofSecs 3) := by decide
  obtain ⟨⟨outcome, ho, result⟩, -, sent, delays⟩ :=
    (requestOwn_ofReplies replies calm order credential { client := 0 }).1 2
      (fun j => if j = 0 then .ofSecs 5 else .ofSecs 3) (by decide) waits (by decide)
  refine ⟨calm, credential, ?_, ?_, ?_⟩
  · rw [show r.1 = _ from result, ← ho]
    decide
  · rw [show r.2.delays = _ from delays]
    rfl
  · rw [show r.2.sent = _ from sent]
    rfl

end WebCall.Call
