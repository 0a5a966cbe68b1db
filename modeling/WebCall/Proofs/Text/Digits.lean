import Mathlib.Algebra.Group.Nat.Defs
import Mathlib.Data.List.Induction
import WebCall.Text.Ascii

/-!
# Digits

A number is read back from its digits, in every base up to sixteen, and digits stand for a number
below the power of the base that their count gives.

## Main definitions

* `ofDigits_toDigits`: a number is read back.
* `toDigits_ofDigits`: decimal digits are the digits of what they stand for.
* `ofDigits_lt`: how great a number can be.
-/
namespace WebCall.Text

variable {base : Nat}

theorem digitValue?_digitChar : ∀ d < 16, digitValue? (Nat.digitChar d) = some d := by decide

theorem isDigitOf_iff {c : Char} : isDigitOf base c = true ↔ ∃ d < base, digitValue? c = some d := by
  cases h : digitValue? c <;> simp [isDigitOf, h]

/-- No blank or control is a digit. -/
theorem le_toNat_of_isDigitOf {c : Char} (h : isDigitOf base c = true) : 48 ≤ c.toNat := by
  obtain ⟨d, -, value⟩ := isDigitOf_iff.1 h
  rw [digitValue?] at value
  split at value
  · next digit => exact digit.1
  · split at value
    · next small =>
      have low : 97 ≤ c.toNat := small.1
      omega
    · split at value
      · next capital =>
        have low : 65 ≤ c.toNat := capital.1
        omega
      · cases value

theorem isDigitOf_digitChar {d : Nat} (low : base ≤ 16) (h : d < base) :
    isDigitOf base (Nat.digitChar d) = true :=
  isDigitOf_iff.2 ⟨d, h, digitValue?_digitChar d (by omega)⟩

theorem ofDigits_concat (cs : List Char) (c : Char) :
    ofDigits base (cs ++ [c]) = ofDigits base cs * base + (digitValue? c).getD 0 := by
  rw [ofDigits, List.foldl_append]
  rfl

/-- The digits of a number are digits. -/
theorem isDigitOf_of_mem_toDigits (high : 1 < base) (low : base ≤ 16) {n : Nat} {c : Char}
    (h : c ∈ Nat.toDigits base n) : isDigitOf base c = true := by
  induction n using Nat.strongRecOn with
  | ind n ih =>
    rw [Nat.toDigits_eq_if high] at h
    split at h
    · next small =>
      obtain rfl := List.mem_singleton.1 h
      exact isDigitOf_digitChar low small
    · next great =>
      rcases List.mem_append.1 h with front | last
      · exact ih (n / base) (Nat.div_lt_self (by omega) high) front
      · obtain rfl := List.mem_singleton.1 last
        exact isDigitOf_digitChar low (Nat.mod_lt n (by omega))

/-- A number is read back from its digits. -/
theorem ofDigits_toDigits (high : 1 < base) (low : base ≤ 16) (n : Nat) :
    ofDigits base (Nat.toDigits base n) = n := by
  induction n using Nat.strongRecOn with
  | ind n ih =>
    rw [Nat.toDigits_eq_if high]
    split
    · next small =>
      have value := digitValue?_digitChar n (by omega)
      simp [ofDigits, value]
    · next great =>
      have below : n % base < base := Nat.mod_lt n (by omega)
      rw [ofDigits_concat, ih (n / base) (Nat.div_lt_self (by omega) high),
        digitValue?_digitChar _ (by omega)]
      exact Nat.div_add_mod' n base

/-- Digits stand for less than the power of the base that their count gives. -/
theorem ofDigits_lt {cs : List Char} (digits : ∀ c ∈ cs, isDigitOf base c = true) :
    ofDigits base cs < base ^ cs.length := by
  induction cs using List.reverseRecOn with
  | nil => simp [ofDigits]
  | append_singleton cs c ih =>
    have front := ih fun d hd => digits d (List.mem_append_left _ hd)
    obtain ⟨d, small, value⟩ := isDigitOf_iff.1 (digits c (by simp))
    rw [ofDigits_concat, value, Option.getD_some, List.length_append, List.length_singleton]
    calc ofDigits base cs * base + d
        < (ofDigits base cs + 1) * base := by rw [Nat.add_one_mul]; omega
      _ ≤ base ^ cs.length * base := Nat.mul_le_mul_right _ front
      _ = base ^ (cs.length + 1) := (Nat.pow_succ ..).symm

/-- The first digit of a number is no zero, unless it is the only one. -/
theorem head?_toDigits_ne (high : 1 < base) (low : base ≤ 16) {n : Nat} (h : 0 < n) :
    (Nat.toDigits base n).head? ≠ some '0' := by
  induction n using Nat.strongRecOn with
  | ind n ih =>
    rw [Nat.toDigits_eq_if high]
    split
    · next small =>
      intro zero
      have value := digitValue?_digitChar n (by omega)
      rw [List.head?_cons, Option.some.injEq] at zero
      rw [zero] at value
      cases value
      exact Nat.lt_irrefl 0 h
    · next great =>
      have front := ih (n / base) (Nat.div_lt_self h high) (Nat.div_pos (by omega) (by omega))
      cases digits : Nat.toDigits base (n / base) with
      | nil => exact absurd digits Nat.toDigits_ne_nil
      | cons c cs => simpa [digits] using front

theorem isDigit_iff {c : Char} : isDigit c = true ↔ 48 ≤ c.toNat ∧ c.toNat ≤ 57 := by
  rw [isDigit, Bool.and_eq_true, decide_eq_true_iff, decide_eq_true_iff]
  rfl

/-- The decimal digits of a number are decimal digits. -/
theorem isDigit_of_mem_toDigits {n : Nat} {c : Char} (h : c ∈ Nat.toDigits 10 n) :
    isDigit c = true := by
  have digit : c.isDigit = true := Nat.isDigit_of_mem_toDigits (by omega) (by omega) h
  rw [Char.isDigit, Bool.and_eq_true, decide_eq_true_iff, decide_eq_true_iff] at digit
  exact isDigit_iff.2 digit

/-- What is so for the ten decimal digits. -/
@[elab_as_elim]
theorem of_isDigit {p : Char → Prop} {c : Char} (h : isDigit c = true)
    (digits : ∀ n < 10, p (Nat.digitChar n)) : p c := by
  obtain ⟨low, high⟩ := isDigit_iff.1 h
  have names : ∀ n < 58, 48 ≤ n → Char.ofNat n = Nat.digitChar (n - 48) := by decide
  rw [← Char.ofNat_toNat c, names c.toNat (by omega) low]
  exact digits _ (by omega)

/-- A decimal digit is the one of its value. -/
theorem digitChar_of_isDigit {c : Char} (h : isDigit c = true) :
    ∃ d < 10, digitValue? c = some d ∧ Nat.digitChar d = c :=
  of_isDigit h fun n small => ⟨n, small, digitValue?_digitChar n (by omega), rfl⟩

/-- Decimal digits without a zero in front are the digits of what they stand for. -/
theorem toDigits_ofDigits {cs : List Char} (nonempty : cs ≠ [])
    (digits : ∀ c ∈ cs, isDigit c = true) (lead : cs.head? = some '0' → cs = ['0']) :
    Nat.toDigits 10 (ofDigits 10 cs) = cs := by
  induction cs using List.reverseRecOn with
  | nil => exact absurd rfl nonempty
  | append_singleton cs c ih =>
    obtain ⟨d, small, value, rfl⟩ := digitChar_of_isDigit (digits c (by simp))
    rw [ofDigits_concat, value, Option.getD_some]
    by_cases one : cs = []
    · subst one
      simp [ofDigits, Nat.toDigits_eq_if, small]
    · have front : cs.head? ≠ some '0' := by
        intro zero
        have same := lead (by rw [List.head?_append, zero]; rfl)
        have count := congrArg List.length same
        rw [List.length_append, List.length_singleton, List.length_singleton] at count
        exact one (List.length_eq_zero_iff.1 (by omega))
      have own := ih one (fun c hc => digits c (List.mem_append_left _ hc)) fun h => absurd h front
      have positive : ofDigits 10 cs ≠ 0 := by
        intro zero
        rw [zero] at own
        exact front (own ▸ rfl)
      have great : ¬ ofDigits 10 cs * 10 + d < 10 := by omega
      have rest : (ofDigits 10 cs * 10 + d) / 10 = ofDigits 10 cs := by omega
      have last : (ofDigits 10 cs * 10 + d) % 10 = d := by omega
      rw [Nat.toDigits_eq_if (by omega), if_neg great, rest, last, own]

end WebCall.Text
