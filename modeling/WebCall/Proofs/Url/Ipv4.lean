import WebCall.Proofs.Text.Digits
import WebCall.Proofs.Text.Pieces
import WebCall.Url.Ipv4

/-!
# IPv4 addresses are read back

An address that is read is one of 32 bits, and four decimal numbers between dots are read as the
address that they show.

## Main definitions

* `ipv4?_lt`: addresses have 32 bits.
* `ipv4?_ipv4Text`: an address is read back.
-/
namespace WebCall.Url

/-- The four bytes of an address. -/
def ipv4Bytes (n : Nat) : List Nat := [n / 256 ^ 3 % 256, n / 256 ^ 2 % 256, n / 256 % 256, n % 256]

theorem lt_of_mem_ipv4Bytes {n b : Nat} (h : b ∈ ipv4Bytes n) : b < 256 := by
  simp only [ipv4Bytes, List.mem_cons, List.not_mem_nil, or_false] at h
  omega

theorem toList_ipv4Text (n : Nat) :
    (ipv4Text n).toList = ['.'].intercalate ((ipv4Bytes n).map (Nat.toDigits 10)) := by
  simp [ipv4Text, ipv4Bytes, toString, List.intercalate_cons_cons]

/-- The characters of the text of an address. -/
theorem of_mem_ipv4Text {n : Nat} {c : Char} (h : c ∈ (ipv4Text n).toList) :
    c = '.' ∨ Text.isDigit c = true := by
  rw [toList_ipv4Text] at h
  rcases Text.mem_intercalate h with dot | ⟨part, hp, hc⟩
  · exact .inl dot
  · obtain ⟨b, -, rfl⟩ := List.mem_map.1 hp
    exact .inr (Text.isDigit_of_mem_toDigits hc)

/-- A number without a leading zero is decimal. -/
theorem ipv4Digits_of_head? {cs : List Char} (h : cs.head? ≠ some '0') :
    ipv4Digits cs = (10, cs) := by
  unfold ipv4Digits
  split
  · exact absurd rfl h
  · exact absurd rfl h
  · exact absurd rfl h
  · rfl

/-- A decimal number is read as such. -/
theorem ipv4Part_toDigits {n : Nat} (h : n < 2 ^ 32) :
    ipv4Part (Nat.toDigits 10 n) = .number n := by
  have decimal : ipv4Digits (Nat.toDigits 10 n) = (10, Nat.toDigits 10 n) := by
    by_cases zero : n = 0
    · subst zero
      rfl
    · exact ipv4Digits_of_head? (Text.head?_toDigits_ne (by omega) (by omega) (by omega))
  have digits : (Nat.toDigits 10 n).all (Text.isDigitOf 10) = true :=
    List.all_eq_true.2 fun c hc => Text.isDigitOf_of_mem_toDigits (by omega) (by omega) hc
  have value : Text.ofDigits 10 (Nat.toDigits 10 n) = n :=
    Text.ofDigits_toDigits (by omega) (by omega) n
  have fits : n < Nat.pow 2 32 := h
  have some_ : (Nat.toDigits 10 n).isEmpty = false := by simp
  simp only [ipv4Part, decimal, digits, value, some_, Bool.not_true, Bool.false_eq_true, if_false,
    if_pos fits]

/-- The numbers of an address stand between its dots. -/
theorem pieces_ipv4Text (n : Nat) :
    Text.pieces '.' (ipv4Text n).toList = (ipv4Bytes n).map (Nat.toDigits 10) := by
  have dotless : ∀ part ∈ (ipv4Bytes n).map (Nat.toDigits 10), '.' ∉ part := by
    intro part hp dot
    obtain ⟨b, -, rfl⟩ := List.mem_map.1 hp
    exact absurd (Text.isDigit_of_mem_toDigits dot) (by decide)
  rw [toList_ipv4Text, Text.pieces_intercalate (by simp [ipv4Bytes]) dotless]

theorem hostParts_ipv4Text (n : Nat) :
    hostParts (ipv4Text n).toList = (ipv4Bytes n).map (Nat.toDigits 10) := by
  rw [hostParts, pieces_ipv4Text]
  simp [ipv4Bytes]

theorem endsInNumber_ipv4Text (n : Nat) : endsInNumber (ipv4Text n).toList = true := by
  have digits : (Nat.toDigits 10 (n % 256)).all Text.isDigit = true :=
    List.all_eq_true.2 fun c hc => Text.isDigit_of_mem_toDigits hc
  rw [endsInNumber, hostParts_ipv4Text]
  simp [ipv4Bytes, digits]

theorem toList_ipv4Text_ne_nil (n : Nat) : (ipv4Text n).toList ≠ [] := by
  intro empty
  have number := endsInNumber_ipv4Text n
  rw [empty] at number
  cases number

/-- An address is read back. -/
theorem ipv4?_ipv4Text {n : Nat} (h : n < 2 ^ 32) : ipv4? (ipv4Text n).toList = some n := by
  have numbers : (ipv4Bytes n).map (ipv4Part ∘ Nat.toDigits 10) = (ipv4Bytes n).map .number := by
    refine List.map_congr_left fun b hb => ipv4Part_toDigits ?_
    have small := lt_of_mem_ipv4Bytes hb
    omega
  rw [ipv4?, hostParts_ipv4Text, List.map_map, numbers]
  simp [ipv4Bytes, List.range_succ]
  omega

/-- Bytes and a rest that fills the others make at most 32 bits. The weights are variables here, as
the kernel would unfold a product with one of them. -/
theorem foldl_places_lt {weight : Nat → Nat} (w₁ : weight 1 = 256) (w₂ : weight 2 = 65536)
    (w₃ : weight 3 = 16777216) (w₄ : weight 4 = 4294967296) {front : List Nat} {last : Nat}
    (few : front.length ≤ 3) (bytes : ∀ b ∈ front, b ≤ 255)
    (rest : last < weight (4 - front.length)) :
    ((List.range front.length).zipWith (fun i n => n * weight (3 - i)) front).foldl (· + ·) last <
      2 ^ 32 := by
  match front, few with
  | [], _ =>
    simp at rest ⊢
    omega
  | [a], _ =>
    simp at bytes rest ⊢
    rw [w₃] at rest ⊢
    omega
  | [a, b], _ =>
    simp [List.range_succ] at bytes rest ⊢
    rw [w₂] at rest ⊢
    rw [w₃]
    omega
  | [a, b, c], _ =>
    simp [List.range_succ] at bytes rest ⊢
    rw [w₁] at rest ⊢
    rw [w₂, w₃]
    omega

/-- An address that is read is one of 32 bits. -/
theorem ipv4?_lt {cs : List Char} {n : Nat} (h : ipv4? cs = some n) : n < 2 ^ 32 := by
  simp only [ipv4?] at h
  generalize List.filterMap _ ((hostParts cs).map ipv4Part) = numbers at h
  rw [Option.ite_none_left_eq_some] at h
  obtain ⟨few, h⟩ := h
  cases hlast : numbers.getLast? with
  | none => simp [hlast] at h
  | some last =>
    simp only [hlast, Option.ite_none_left_eq_some, Option.some.injEq] at h
    obtain ⟨fits, rfl⟩ := h
    simp only [Bool.or_eq_true, List.any_eq_true, decide_eq_true_eq, not_or, not_exists, not_and,
      Nat.not_lt, Nat.not_le, bne_iff_ne, Decidable.not_not] at few fits
    refine foldl_places_lt rfl rfl rfl rfl ?_ fits.1 fits.2
    rw [List.length_dropLast]
    omega

end WebCall.Url
