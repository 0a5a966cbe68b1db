import WebCall.Proofs.Text.Digits
import WebCall.Proofs.Text.Trim
import WebCall.Retry.Policy

/-!
# The texts of a Retry-After field

A field asks for a wait exactly if its value is a count between blanks: the decimal digits of the
seconds, with any number of zeros in front of them and at most one plus sign in front of those. The
seconds have to fit 64 bits; how many zeros there are does not matter.

## Main definitions

* `Text.CountText`: the texts of a count.
* `AsksFor`: the values that ask for a wait.
* `retryAfterSecs_eq_ok_iff`: what is read of a value.
-/
namespace WebCall

namespace Text

/-! ## Counts -/

/-- A text of the count `n`. -/
def CountText (n : Nat) (cs : List Char) : Prop :=
  n < Nat.pow 2 64 ∧ ∃ plus zeros, (plus = [] ∨ plus = ['+']) ∧
    cs = plus ++ (List.replicate zeros '0' ++ Nat.toDigits 10 n)

/-- Zeros in front make no difference. -/
theorem ofDigits_replicate_append (base zeros : Nat) (cs : List Char) :
    ofDigits base (List.replicate zeros '0' ++ cs) = ofDigits base cs := by
  induction zeros with
  | zero => rfl
  | succ zeros ih =>
    have value : (digitValue? '0').getD 0 = 0 := rfl
    rw [List.replicate_succ, List.cons_append, ← ih, ofDigits, List.foldl_cons, value, Nat.zero_mul]
    rfl

/-- Decimal digits are those of what they stand for, with zeros in front. -/
theorem exists_replicate_append_toDigits {cs : List Char} (nonempty : cs ≠ [])
    (digits : ∀ c ∈ cs, isDigit c = true) :
    ∃ zeros, cs = List.replicate zeros '0' ++ Nat.toDigits 10 (ofDigits 10 cs) := by
  induction cs with
  | nil => exact absurd rfl nonempty
  | cons c cs ih =>
    by_cases padded : c = '0' ∧ cs ≠ []
    · obtain ⟨rfl, more⟩ := padded
      obtain ⟨zeros, split⟩ := ih more fun d hd => digits d (List.mem_cons_of_mem _ hd)
      have same : ofDigits 10 ('0' :: cs) = ofDigits 10 cs := ofDigits_replicate_append 10 1 cs
      refine ⟨zeros + 1, ?_⟩
      rw [same, List.replicate_succ, List.cons_append, ← split]
    · refine ⟨0, (toDigits_ofDigits nonempty digits fun lead => ?_).symm⟩
      rw [List.head?_cons, Option.some.injEq] at lead
      rw [lead, not_not.1 fun more => padded ⟨lead, more⟩]

theorem isDigit_of_mem_replicate_append {zeros n : Nat} {c : Char}
    (h : c ∈ List.replicate zeros '0' ++ Nat.toDigits 10 n) : isDigit c = true := by
  rcases List.mem_append.1 h with zero | digit
  · rw [List.eq_of_mem_replicate zero]
    rfl
  · exact isDigit_of_mem_toDigits digit

/-- What stands after a plus sign, if there is one. -/
theorem withoutPlus_cases (cs : List Char) :
    ∃ plus, (plus = [] ∨ plus = ['+']) ∧ cs = plus ++ withoutPlus cs := by
  unfold withoutPlus
  split
  · exact ⟨['+'], .inr rfl, rfl⟩
  · exact ⟨[], .inl rfl, rfl⟩

theorem withoutPlus_append {plus cs : List Char} (sign : plus = [] ∨ plus = ['+'])
    (digits : ∀ c ∈ cs, isDigit c = true) : withoutPlus (plus ++ cs) = cs := by
  rcases sign with rfl | rfl
  · cases cs with
    | nil => rfl
    | cons c cs =>
      have other : c ≠ '+' := by
        rintro rfl
        exact absurd (digits '+' List.mem_cons_self) (by decide)
      rw [List.nil_append, withoutPlus]
      simp [other]
  · rfl

/-- A text is read as a count exactly if it is one of its texts. -/
theorem count?_eq_some_iff {cs : List Char} {n : Nat} : count? cs = some n ↔ CountText n cs := by
  constructor
  · intro h
    obtain ⟨plus, sign, split⟩ := withoutPlus_cases cs
    simp only [count?, Bool.or_eq_true, List.isEmpty_iff, Bool.not_eq_true',
      Option.ite_none_left_eq_some, not_or, Bool.not_eq_false, List.all_eq_true,
      Option.ite_none_right_eq_some, Option.some.injEq] at h
    obtain ⟨⟨nonempty, digits⟩, small, rfl⟩ := h
    obtain ⟨zeros, padded⟩ := exists_replicate_append_toDigits nonempty digits
    exact ⟨small, plus, zeros, sign, by rw [← padded]; exact split⟩
  · rintro ⟨small, plus, zeros, sign, rfl⟩
    have digits : ∀ c ∈ List.replicate zeros '0' ++ Nat.toDigits 10 n, isDigit c = true :=
      fun c hc => isDigit_of_mem_replicate_append hc
    have nonempty : List.replicate zeros '0' ++ Nat.toDigits 10 n ≠ [] :=
      List.append_ne_nil_of_right_ne_nil _ Nat.toDigits_ne_nil
    have value : ofDigits 10 (List.replicate zeros '0' ++ Nat.toDigits 10 n) = n := by
      rw [ofDigits_replicate_append, ofDigits_toDigits (by omega) (by omega)]
    rw [count?, withoutPlus_append sign digits, value, if_pos small, if_neg]
    simp only [Bool.or_eq_true, List.isEmpty_iff, nonempty, false_or, Bool.not_eq_true',
      Bool.not_eq_false, List.all_eq_true]
    exact digits

/-- A count holds no blank. -/
theorem CountText.solid {n : Nat} {cs : List Char} (h : CountText n cs) :
    ∀ c ∈ cs, isBlank c = false := by
  obtain ⟨-, plus, zeros, sign, rfl⟩ := h
  intro c hc
  rcases List.mem_append.1 hc with first | later
  · rcases sign with rfl | rfl
    · cases first
    · rw [List.mem_singleton.1 first]
      rfl
  · exact of_isDigit (isDigit_of_mem_replicate_append later) (by decide)

theorem CountText.ne_nil {n : Nat} {cs : List Char} (h : CountText n cs) : cs ≠ [] := by
  obtain ⟨-, plus, zeros, sign, rfl⟩ := h
  simp [Nat.toDigits_ne_nil]

end Text

namespace Retry

/-! ## Values of the field -/

/-- The value of a field asks for a wait of `secs` seconds. -/
def AsksFor (value : String) (secs : Nat) : Prop :=
  ∃ lead count trail, value.toList = lead ++ (count ++ trail) ∧
    (∀ c ∈ lead, Text.isBlank c = true) ∧ (∀ c ∈ trail, Text.isBlank c = true) ∧
    Text.CountText secs count

/-- The seconds of a value are those that it asks for. -/
theorem retryAfterSecs_eq_ok_iff {value : String} {secs : Nat} :
    retryAfterSecs (some value) = .ok secs ↔ AsksFor value secs := by
  have read : retryAfterSecs (some value) = .ok secs ↔
      Text.CountText secs (Text.trimBoth value.toList) := by
    rw [← Text.count?_eq_some_iff, retryAfterSecs]
    cases Text.count? (Text.trimBoth value.toList) <;> simp
  rw [read]
  constructor
  · intro count
    obtain ⟨lead, trail, blank, blank', split⟩ := Text.exists_blanks_eq_trimBoth value.toList
    exact ⟨lead, _, trail, split, blank, blank', count⟩
  · rintro ⟨lead, count, trail, split, blank, blank', text⟩
    rw [split, Text.trimBoth_append_of_blank blank blank' text.ne_nil text.solid]
    exact text

/-- The text of the error if a value asks for no wait. -/
theorem retryAfterSecs_eq_malformed {value : String} (h : ∀ secs, ¬ AsksFor value secs) :
    retryAfterSecs (some value) = .error (.malformed value) := by
  cases read : retryAfterSecs (some value) with
  | ok secs => exact absurd (retryAfterSecs_eq_ok_iff.1 read) (h secs)
  | error e =>
    rw [retryAfterSecs] at read
    split at read <;> cases read
    rfl

end Retry

end WebCall
