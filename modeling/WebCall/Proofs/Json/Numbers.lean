import Mathlib.Data.List.TakeWhile
import WebCall.Proofs.Json.Grammar
import WebCall.Proofs.Text.Digits
import WebCall.Proofs.Text.Pieces

/-!
# Numbers of JSON texts

The readers of numbers accept exactly the spellings that the grammar has, as far as the text goes: a
spelling can be the start of another, so nothing may follow that goes on with a number. The whole
numbers of 64 bits have their decimal digits for their only spelling.

## Main definitions

* `Ends`: the texts that do not go on with a number.
* `numeral?_append`, `numeralText_of_numeral?`: what is read as the parts of a number.
* `number?_append`, `numberText_of_number?`: what is read as a number.
-/
namespace WebCall.Json

open Text (isDigit isDigitOf digitValue? ofDigits takeWhile_append_of_stop dropWhile_append_of_stop)

/-! ## Parts of numbers -/

/-- No character in front goes on with a number. -/
def Ends (rest : List Char) : Prop :=
  ∀ c, rest.head? = some c → isDigit c = false ∧ c ∉ ['.', 'e', 'E']

theorem takeDigits_append {ds rest : List Char} (digits : ∀ c ∈ ds, isDigit c = true)
    (stop : ∀ c, rest.head? = some c → isDigit c = false) :
    takeDigits (ds ++ rest) = (ds, rest) := by
  rw [takeDigits, takeWhile_append_of_stop digits stop, dropWhile_append_of_stop digits stop]

theorem takeDigits_fst_append_snd (cs : List Char) : (takeDigits cs).1 ++ (takeDigits cs).2 = cs :=
  List.takeWhile_append_dropWhile

theorem digits_takeDigits {cs : List Char} (h : (takeDigits cs).1.isEmpty = false) :
    Digits (takeDigits cs).1 where
  nonempty := by simpa using h
  digits := fun _ hc => List.mem_takeWhile_imp hc

theorem Digits.isEmpty {ds : List Char} (h : Digits ds) : ds.isEmpty = false := by
  simpa using h.nonempty

theorem fraction?_append {fraction : Option (List Char)} {fs rest : List Char}
    (h : FractionText fraction fs)
    (stop : ∀ c, rest.head? = some c → isDigit c = false ∧ c ≠ '.') :
    fraction? (fs ++ rest) = some (fraction, rest) := by
  cases h with
  | absent =>
    rw [List.nil_append]
    unfold fraction?
    split
    · exact absurd rfl (stop '.' rfl).2
    · rfl
  | present digits =>
    have cut := takeDigits_append digits.digits fun c hc => (stop c hc).1
    simp only [List.cons_append, fraction?, cut, digits.isEmpty]
    rfl

theorem fractionText_of_fraction? {cs rest : List Char} {fraction : Option (List Char)}
    (h : fraction? cs = some (fraction, rest)) :
    ∃ fs, FractionText fraction fs ∧ cs = fs ++ rest := by
  unfold fraction? at h
  split at h
  · next tail =>
    rw [Option.ite_none_left_eq_some, Option.some.injEq, Prod.mk.injEq, Bool.not_eq_true] at h
    obtain ⟨nonempty, rfl, rfl⟩ := h
    refine ⟨_, .present (digits_takeDigits nonempty), ?_⟩
    rw [List.cons_append, takeDigits_fst_append_snd]
  · cases h
    exact ⟨[], .absent, rfl⟩

theorem exponentTail?_append {negative : Bool} {sign ds rest : List Char}
    (signed : sign ∈ exponentSigns negative) (digits : Digits ds)
    (stop : ∀ c, rest.head? = some c → isDigit c = false) :
    exponentTail? (sign ++ ds ++ rest) = some ((negative, ds), rest) := by
  have cut := takeDigits_append digits.digits stop
  obtain ⟨d, ds, rfl⟩ := List.exists_cons_of_ne_nil digits.nonempty
  have digit := digits.digits d List.mem_cons_self
  have unsigned : d ≠ '-' ∧ d ≠ '+' := by
    constructor <;> rintro rfl <;> exact absurd digit (by decide)
  cases negative with
  | true =>
    obtain rfl : sign = ['-'] := by simpa [exponentSigns] using signed
    simp only [exponentTail?, List.cons_append, List.nil_append] at cut ⊢
    simp [cut]
  | false =>
    have signs : sign = [] ∨ sign = ['+'] := by simpa [exponentSigns] using signed
    rcases signs with rfl | rfl
    · simp only [exponentTail?, List.cons_append, List.nil_append] at cut ⊢
      split
      · next eq =>
        cases eq
        exact absurd rfl unsigned.1
      · next eq =>
        cases eq
        exact absurd rfl unsigned.2
      · simp [cut]
    · simp only [exponentTail?, List.cons_append, List.nil_append] at cut ⊢
      simp [cut]

theorem exponentTail?_eq_some {cs rest ds : List Char} {negative : Bool}
    (h : exponentTail? cs = some ((negative, ds), rest)) :
    ∃ sign ∈ exponentSigns negative, Digits ds ∧ cs = sign ++ ds ++ rest := by
  have of (sign tail : List Char) (n : Bool) (signed : sign ∈ exponentSigns n)
      (whole : cs = sign ++ tail)
      (read : (if (takeDigits tail).1.isEmpty = true then none
        else some ((n, (takeDigits tail).1), (takeDigits tail).2)) = some ((negative, ds), rest)) :
      ∃ sign ∈ exponentSigns negative, Digits ds ∧ cs = sign ++ ds ++ rest := by
    rw [Option.ite_none_left_eq_some, Option.some.injEq, Bool.not_eq_true] at read
    obtain ⟨nonempty, eq⟩ := read
    cases eq
    refine ⟨sign, signed, digits_takeDigits nonempty, ?_⟩
    rw [whole, List.append_assoc, takeDigits_fst_append_snd]
  unfold exponentTail? at h
  split at h
  · exact of ['-'] _ true (by simp [exponentSigns]) rfl h
  · exact of ['+'] _ false (by simp [exponentSigns]) rfl h
  · exact of [] _ false (by simp [exponentSigns]) rfl h

theorem exponent?_append {exponent : Option (Bool × List Char)} {es rest : List Char}
    (h : ExponentText exponent es) (ends : Ends rest) :
    exponent? (es ++ rest) = some (exponent, rest) := by
  cases h with
  | absent =>
    rw [List.nil_append]
    unfold exponent?
    split
    · exact absurd (ends 'e' rfl).2 (by decide)
    · exact absurd (ends 'E' rfl).2 (by decide)
    · rfl
  | @present negative letter sign ds mark signed digits =>
    have tail := exponentTail?_append signed digits fun c hc => (ends c hc).1
    have marks : letter = 'e' ∨ letter = 'E' := by simpa using mark
    rcases marks with rfl | rfl <;> simp only [List.cons_append, exponent?, tail] <;> rfl

theorem exponentText_of_exponent? {cs rest : List Char} {exponent : Option (Bool × List Char)}
    (h : exponent? cs = some (exponent, rest)) :
    ∃ es, ExponentText exponent es ∧ cs = es ++ rest := by
  unfold exponent? at h
  split at h
  · rw [Option.map_eq_some_iff] at h
    obtain ⟨⟨⟨negative, ds⟩, tail⟩, read, eq⟩ := h
    cases eq
    obtain ⟨sign, signed, digits, rfl⟩ := exponentTail?_eq_some read
    exact ⟨_, .present (by simp : 'e' ∈ ['e', 'E']) signed digits, rfl⟩
  · rw [Option.map_eq_some_iff] at h
    obtain ⟨⟨⟨negative, ds⟩, tail⟩, read, eq⟩ := h
    cases eq
    obtain ⟨sign, signed, digits, rfl⟩ := exponentTail?_eq_some read
    exact ⟨_, .present (by simp : 'E' ∈ ['e', 'E']) signed digits, rfl⟩
  · cases h
    exact ⟨[], .absent, rfl⟩

/-- What follows the digits of a fraction does not go on with them. -/
theorem ExponentText.stop {exponent : Option (Bool × List Char)} {es rest : List Char}
    (h : ExponentText exponent es) (ends : Ends rest) :
    ∀ c, (es ++ rest).head? = some c → isDigit c = false ∧ c ≠ '.' := by
  cases h with
  | absent =>
    intro c hc
    obtain ⟨digit, others⟩ := ends c hc
    exact ⟨digit, fun point => others (by simp [point])⟩
  | present mark =>
    intro c hc
    obtain rfl := Option.some.inj hc
    simp only [List.mem_cons, List.not_mem_nil, or_false] at mark
    rcases mark with rfl | rfl <;> decide

/-- What follows the digits in front does not go on with them. -/
theorem FractionText.stop {fraction : Option (List Char)} {fs rest : List Char}
    (h : FractionText fraction fs) (stop : ∀ c, rest.head? = some c → isDigit c = false) :
    ∀ c, (fs ++ rest).head? = some c → isDigit c = false := by
  cases h with
  | absent => exact stop
  | present =>
    intro c hc
    obtain rfl := Option.some.inj hc
    decide

/-- The parts of a number after its sign. -/
def unsigned? (negative : Bool) (cs : List Char) : Option (Numeral × List Char) :=
  let whole := takeDigits cs
  if whole.1.isEmpty || (whole.1.head? == some '0' && whole.1.length != 1) then none
  else
    (fraction? whole.2).bind fun fraction =>
      (exponent? fraction.2).map fun exponent =>
        (⟨negative, whole.1, fraction.1, exponent.1⟩, exponent.2)

theorem numeral?_minus (cs : List Char) : numeral? ('-' :: cs) = unsigned? true cs := rfl

theorem numeral?_plain {cs : List Char} (h : cs.head? ≠ some '-') :
    numeral? cs = unsigned? false cs := by
  unfold numeral? unsigned?
  split
  · exact absurd rfl h
  · rfl

theorem unsigned?_append {negative : Bool} {whole fs es rest : List Char}
    {fraction : Option (List Char)} {exponent : Option (Bool × List Char)} (digits : Digits whole)
    (lead : whole.head? = some '0' → whole = ['0']) (point : FractionText fraction fs)
    (power : ExponentText exponent es) (ends : Ends rest) :
    unsigned? negative (whole ++ (fs ++ es) ++ rest) =
      some (⟨negative, whole, fraction, exponent⟩, rest) := by
  have stop := power.stop ends
  have cut : takeDigits (whole ++ (fs ++ (es ++ rest))) = (whole, fs ++ (es ++ rest)) :=
    takeDigits_append digits.digits (point.stop fun c hc => (stop c hc).1)
  have fine : (whole.isEmpty || (whole.head? == some '0' && whole.length != 1)) = false := by
    rw [digits.isEmpty, Bool.false_or]
    by_cases zero : whole.head? = some '0'
    · simp [lead zero]
    · simp [zero]
  simp only [unsigned?, List.append_assoc, cut, fine, fraction?_append point stop,
    exponent?_append power ends, Option.bind_some, Option.map_some]
  rfl

theorem numeralText_of_unsigned? {n : Numeral} {negative : Bool} {cs rest : List Char}
    (h : unsigned? negative cs = some (n, rest)) :
    ∃ ds, NumeralText n ((if negative then ['-'] else []) ++ ds) ∧ cs = ds ++ rest := by
  rw [unsigned?, Option.ite_none_left_eq_some, Bool.not_eq_true, Bool.or_eq_false_iff] at h
  obtain ⟨⟨nonempty, lead⟩, read⟩ := h
  rw [Option.bind_eq_some_iff] at read
  obtain ⟨⟨fraction, tail⟩, point, read⟩ := read
  rw [Option.map_eq_some_iff] at read
  obtain ⟨⟨exponent, tail'⟩, power, eq⟩ := read
  cases eq
  obtain ⟨fs, fractionText, after⟩ := fractionText_of_fraction? point
  obtain ⟨es, exponentText, rfl⟩ := exponentText_of_exponent? power
  refine ⟨_, .mk (digits_takeDigits nonempty) ?_ fractionText exponentText, ?_⟩
  · intro zero
    have one : (takeDigits cs).1.length = 1 := by
      rw [zero] at lead
      simpa using lead
    obtain ⟨c, single⟩ := List.length_eq_one_iff.1 one
    rw [single, List.head?_cons, Option.some.injEq] at zero
    rw [single, zero]
  · conv_lhs => rw [← takeDigits_fst_append_snd cs, after]
    simp only [List.append_assoc]

theorem Digits.head?_ne {ds : List Char} (h : Digits ds) {c : Char} (other : isDigit c = false) :
    ds.head? ≠ some c := by
  intro head
  have digit := h.digits c (List.mem_of_head? head)
  rw [other] at digit
  cases digit

/-- The parts of a number are read back from every text of theirs. -/
theorem numeral?_append {n : Numeral} {cs rest : List Char} (h : NumeralText n cs)
    (ends : Ends rest) : numeral? (cs ++ rest) = some (n, rest) := by
  obtain @⟨negative, whole, fs, es, fraction, exponent, digits, lead, point, power⟩ := h
  have read : unsigned? negative (whole ++ (fs ++ es) ++ rest) =
      some (⟨negative, whole, fraction, exponent⟩, rest) :=
    unsigned?_append digits lead point power ends
  cases negative with
  | true => exact (numeral?_minus _).trans read
  | false =>
    have plain : (whole ++ (fs ++ es) ++ rest).head? ≠ some '-' := by
      obtain ⟨d, ds, rfl⟩ := List.exists_cons_of_ne_nil digits.nonempty
      exact digits.head?_ne (by decide)
    exact (numeral?_plain plain).trans read

/-- What is read as the parts of a number is one of their texts. -/
theorem numeralText_of_numeral? {n : Numeral} {cs rest : List Char}
    (h : numeral? cs = some (n, rest)) : ∃ ds, NumeralText n ds ∧ cs = ds ++ rest := by
  by_cases signed : cs.head? = some '-'
  · obtain ⟨tail, rfl⟩ := List.head?_eq_some_iff.1 signed
    obtain ⟨ds, text, rfl⟩ := numeralText_of_unsigned? ((numeral?_minus tail).symm.trans h)
    exact ⟨_, text, rfl⟩
  · obtain ⟨ds, text, rfl⟩ := numeralText_of_unsigned? ((numeral?_plain signed).symm.trans h)
    exact ⟨_, text, rfl⟩

/-! ## Whole numbers -/

/-- The word that digits make after the digits of another one. -/
def longer (word : Nat) (ds : List Char) : Nat :=
  ds.foldl (fun n c => n * 10 + (digitValue? c).getD 0) word

theorem le_longer (word : Nat) (ds : List Char) : word ≤ longer word ds := by
  induction ds generalizing word with
  | nil => exact Nat.le_refl word
  | cons d ds ih => exact Nat.le_trans (by omega) (ih (word * 10 + (digitValue? d).getD 0))

theorem gather_cons (word : Nat) (d : Char) (ds : List Char) :
    Number.gather word (d :: ds) =
      let next := word * 10 + (digitValue? d).getD 0
      if next < 2 ^ 64 then ((Number.gather next ds).1, (Number.gather next ds).2 + 1)
      else (word, 0) := by
  have value : ofDigits 10 [d] + word * 10 = word * 10 + (digitValue? d).getD 0 := by
    simp [ofDigits, Nat.add_comm]
  simp only [Number.gather, value]
  rfl

/-- Digits that make a word of 64 bits are all gathered in it. -/
theorem gather_of_lt {word : Nat} {ds : List Char} (h : longer word ds < 2 ^ 64) :
    Number.gather word ds = (longer word ds, ds.length) := by
  induction ds generalizing word with
  | nil => rfl
  | cons d ds ih =>
    have all : longer (word * 10 + (digitValue? d).getD 0) ds < 2 ^ 64 := h
    have fits := Nat.lt_of_le_of_lt (le_longer _ ds) all
    simp only [gather_cons, fits, if_true, ih all]
    rfl

/-- Digits that are all gathered make a word of 64 bits. -/
theorem longer_lt {word : Nat} {ds : List Char} (h : word < 2 ^ 64)
    (all : ds.length ≤ (Number.gather word ds).2) : longer word ds < 2 ^ 64 := by
  induction ds generalizing word with
  | nil => exact h
  | cons d ds ih =>
    rw [gather_cons] at all
    dsimp only at all
    split at all
    · next fits => exact ih fits (Nat.le_of_succ_le_succ all)
    · exact absurd all (by simp)

theorem gather_length_iff {ds : List Char} :
    ds.length - (Number.gather 0 ds).2 = 0 ↔ ofDigits 10 ds < 2 ^ 64 := by
  constructor
  · intro all
    exact longer_lt (by decide) (Nat.le_of_sub_eq_zero all)
  · intro small
    have read : Number.gather 0 ds = (ofDigits 10 ds, ds.length) := gather_of_lt small
    rw [read, Nat.sub_self]

/-- Digits alone, within the range of a word. -/
theorem ofNumeral?_digits (negative : Bool) {ds : List Char} (small : ofDigits 10 ds < 2 ^ 64) :
    Number.ofNumeral? ⟨negative, ds, none, none⟩ =
      if negative = false then some (.whole (ofDigits 10 ds))
      else if ofDigits 10 ds = 0 ∨ 2 ^ 63 < ofDigits 10 ds then
        (Binary64.ofNat (ofDigits 10 ds)).map (.real true)
      else some (.whole (-(ofDigits 10 ds : Int))) := by
  have read : Number.gather 0 ds = (ofDigits 10 ds, ds.length) := gather_of_lt small
  simp only [Number.ofNumeral?, read, Option.isNone_none, Nat.sub_self, BEq.rfl, Bool.and_self,
    if_true]
  cases negative <;> rfl

/-- All other numerals stand for a number that is rounded. -/
theorem ofNumeral?_ne_whole {n : Numeral} (v : Int)
    (h : ¬ (n.fraction = none ∧ n.exponent = none ∧ ofDigits 10 n.whole < 2 ^ 64)) :
    Number.ofNumeral? n ≠ some (.whole v) := by
  have other : (n.fraction.isNone && n.exponent.isNone &&
      n.whole.length - (Number.gather 0 n.whole).2 == 0) = false := by
    rw [Bool.eq_false_iff]
    intro plain
    simp only [Bool.and_eq_true, Option.isNone_iff_eq_none, beq_iff_eq, gather_length_iff] at plain
    exact h ⟨plain.1.1, plain.1.2, plain.2⟩
  intro whole
  simp only [Number.ofNumeral?, other] at whole
  obtain ⟨x, -, rounded⟩ := Option.bind_eq_some_iff.1 whole
  obtain ⟨y, -, eq⟩ := Option.map_eq_some_iff.1 rounded
  cases eq

/-- The numerals that stand for a whole number: digits alone, within the range of a word, and a
minus sign only in front of a number other than zero. -/
theorem ofNumeral?_eq_whole_iff {n : Numeral} {v : Int} :
    Number.ofNumeral? n = some (.whole v) ↔
      (n.fraction = none ∧ n.exponent = none ∧ ofDigits 10 n.whole < 2 ^ 64) ∧
      ((n.negative = false ∧ v = ofDigits 10 n.whole) ∨
        (n.negative = true ∧ 0 < ofDigits 10 n.whole ∧ ofDigits 10 n.whole ≤ 2 ^ 63 ∧
          v = -(ofDigits 10 n.whole : Int))) := by
  by_cases plain : n.fraction = none ∧ n.exponent = none ∧ ofDigits 10 n.whole < 2 ^ 64
  · obtain ⟨negative, whole, fraction, exponent⟩ := n
    obtain ⟨rfl, rfl, small⟩ := plain
    dsimp only at small ⊢
    rw [ofNumeral?_digits negative small]
    cases negative with
    | false =>
      rw [if_pos rfl, Option.some.injEq, Number.whole.injEq]
      constructor
      · rintro rfl
        exact ⟨⟨rfl, rfl, small⟩, .inl ⟨rfl, rfl⟩⟩
      · rintro ⟨-, ⟨-, rfl⟩ | ⟨signed, -⟩⟩
        · rfl
        · cases signed
    | true =>
      by_cases real : ofDigits 10 whole = 0 ∨ 2 ^ 63 < ofDigits 10 whole
      · rw [if_neg (by decide), if_pos real]
        constructor
        · intro h
          obtain ⟨x, -, eq⟩ := Option.map_eq_some_iff.1 h
          cases eq
        · rintro ⟨-, ⟨unsigned, -⟩ | ⟨-, positive, low, -⟩⟩
          · cases unsigned
          · omega
      · have within : 0 < ofDigits 10 whole ∧ ofDigits 10 whole ≤ 2 ^ 63 := by omega
        rw [if_neg (by decide), if_neg real, Option.some.injEq, Number.whole.injEq]
        constructor
        · rintro rfl
          exact ⟨⟨rfl, rfl, small⟩, .inr ⟨rfl, within.1, within.2, rfl⟩⟩
        · rintro ⟨-, ⟨unsigned, -⟩ | ⟨-, -, -, rfl⟩⟩
          · cases unsigned
          · rfl
  · constructor
    · intro h
      exact absurd h (ofNumeral?_ne_whole v plain)
    · rintro ⟨h, -⟩
      exact absurd h plain

theorem numeralText_decimal (n : Int) :
    NumeralText ⟨decide (n < 0), Nat.toDigits 10 n.natAbs, none, none⟩ (decimal n) := by
  have digits : Digits (Nat.toDigits 10 n.natAbs) :=
    ⟨Nat.toDigits_ne_nil, fun _ => Text.isDigit_of_mem_toDigits⟩
  have lead : (Nat.toDigits 10 n.natAbs).head? = some '0' → Nat.toDigits 10 n.natAbs = ['0'] := by
    intro zero
    rcases Nat.eq_zero_or_pos n.natAbs with none_ | positive
    · rw [none_]
      rfl
    · exact absurd zero (Text.head?_toDigits_ne (by omega) (by omega) positive)
  have text := @NumeralText.mk (decide (n < 0)) _ _ _ _ _ digits lead .absent .absent
  simpa [decimal] using text

theorem word_bounds : Int.pow 2 63 = 9223372036854775808 ∧ Int.pow 2 64 = 18446744073709551616 :=
  ⟨rfl, rfl⟩

theorem ofNumeral?_decimal {n : Int} (low : -Int.pow 2 63 ≤ n) (high : n < Int.pow 2 64) :
    Number.ofNumeral? ⟨decide (n < 0), Nat.toDigits 10 n.natAbs, none, none⟩ =
      some (.whole n) := by
  rw [ofNumeral?_eq_whole_iff]
  dsimp only
  rw [Text.ofDigits_toDigits (by omega) (by omega), decide_eq_false_iff_not, decide_eq_true_iff]
  rw [word_bounds.1] at low
  rw [word_bounds.2] at high
  refine ⟨⟨rfl, rfl, ?_⟩, ?_⟩ <;> omega

/-- The text of a numeral that stands for a whole number is the number in decimal digits. -/
theorem numberText_whole {n : Numeral} {cs : List Char} {v : Int} (text : NumeralText n cs)
    (value : Number.ofNumeral? n = some (.whole v)) : NumberText (.whole v) cs := by
  obtain ⟨⟨point, power, small⟩, sign⟩ := ofNumeral?_eq_whole_iff.1 value
  obtain @⟨negative, whole, fs, es, fraction, exponent, digits, lead, point', power'⟩ := text
  dsimp only at point power small sign
  subst point power
  cases point'
  cases power'
  have own := Text.toDigits_ofDigits digits.nonempty digits.digits lead
  have spelled : decimal v = (if negative then ['-'] else []) ++ (whole ++ ([] ++ [])) := by
    rw [List.append_nil, List.append_nil, decimal]
    rcases sign with ⟨rfl, rfl⟩ | ⟨rfl, positive, -, rfl⟩
    · have plain : ¬ (ofDigits 10 whole : Int) < 0 := by omega
      rw [if_neg plain, Int.natAbs_natCast, own]
      rfl
    · have minus : -(ofDigits 10 whole : Int) < 0 := by omega
      rw [if_pos minus, Int.natAbs_neg, Int.natAbs_natCast, own]
      rfl
  exact spelled ▸ .whole (by rw [word_bounds.1]; omega) (by rw [word_bounds.2]; omega)

/-! ## Numbers -/

/-- A number is read back from every spelling of it. -/
theorem number?_append {n : Number} {cs rest : List Char} (h : NumberText n cs)
    (ends : Ends rest) : number? (cs ++ rest) = some (n, rest) := by
  cases h with
  | @whole v low high =>
    rw [number?, numeral?_append (numeralText_decimal v) ends, Option.bind_some,
      ofNumeral?_decimal low high, Option.map_some]
  | real parts value =>
    rw [number?, numeral?_append parts ends, Option.bind_some, value, Option.map_some]

/-- What is read as a number is a spelling of it. -/
theorem numberText_of_number? {n : Number} {cs rest : List Char}
    (h : number? cs = some (n, rest)) : ∃ ds, NumberText n ds ∧ cs = ds ++ rest := by
  obtain ⟨⟨numeral, tail⟩, read, h⟩ := Option.bind_eq_some_iff.1 h
  obtain ⟨number, value, eq⟩ := Option.map_eq_some_iff.1 h
  cases eq
  obtain ⟨ds, text, rfl⟩ := numeralText_of_numeral? read
  cases n with
  | whole v => exact ⟨ds, numberText_whole text value, rfl⟩
  | real negative x => exact ⟨ds, .real text value, rfl⟩

/-- A number begins with a digit or a minus sign. -/
theorem NumberText.head {n : Number} {cs : List Char} (h : NumberText n cs) :
    ∃ c tail, cs = c :: tail ∧ (isDigit c = true ∨ c = '-') := by
  have numeral : ∃ numeral, NumeralText numeral cs := by
    cases h with
    | @whole v => exact ⟨_, numeralText_decimal v⟩
    | real parts => exact ⟨_, parts⟩
  obtain ⟨_, @⟨negative, whole, fs, es, fraction, exponent, digits, -, -, -⟩⟩ := numeral
  cases negative with
  | true => exact ⟨'-', _, rfl, .inr rfl⟩
  | false =>
    obtain ⟨d, ds, rfl⟩ := List.exists_cons_of_ne_nil digits.nonempty
    exact ⟨d, _, rfl, .inl (digits.digits d List.mem_cons_self)⟩

end WebCall.Json
