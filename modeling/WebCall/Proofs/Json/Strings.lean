import WebCall.Proofs.Json.Grammar
import WebCall.Proofs.Text.Digits

/-!
# Strings of JSON texts

The readers of characters and strings accept exactly the spellings that the grammar has. No spelling
of a character is the start of another, and a quote starts none, so it does not matter what follows.

## Main definitions

* `stringChar?_eq_some_iff`: what is read as a character.
* `stringTail?_eq_some_iff`: what is read as a string.
-/
namespace WebCall.Json

/-! ## Numbers of characters -/

theorem toNat_cases (c : Char) : c.toNat < 0xD800 ∨ (0xDFFF < c.toNat ∧ c.toNat < 0x110000) :=
  c.valid

theorem toNat_ofNat {n : Nat} (h : n < 0xD800 ∨ (0xDFFF < n ∧ n < 0x110000)) :
    (Char.ofNat n).toNat = n := by
  rw [Char.ofNat, dif_pos h]
  rfl

theorem hex4?_eq_some_iff {cs rest : List Char} {n : Nat} :
    hex4? cs = some (n, rest) ↔ ∃ ds, Hex4 ds n ∧ cs = ds ++ rest := by
  constructor
  · intro h
    unfold hex4? at h
    split at h
    · next a b c d tail =>
      rw [Option.ite_none_right_eq_some, Option.some.injEq, Prod.mk.injEq] at h
      obtain ⟨digits, value, rfl⟩ := h
      exact ⟨[a, b, c, d], ⟨rfl, List.all_eq_true.1 digits, value⟩, rfl⟩
    · cases h
  · rintro ⟨ds, ⟨count, digits, value⟩, rfl⟩
    obtain ⟨a, b, c, d, rfl⟩ : ∃ a b c d, ds = [a, b, c, d] := by
      match ds, count with
      | [a, b, c, d], _ => exact ⟨a, b, c, d, rfl⟩
    have all : [a, b, c, d].all (Text.isDigitOf 16) = true := List.all_eq_true.2 digits
    simp only [hex4?, List.cons_append, List.nil_append, all, if_true, value]

theorem Hex4.read {ds : List Char} {n : Nat} (h : Hex4 ds n) (rest : List Char) :
    hex4? (ds ++ rest) = some (n, rest) :=
  hex4?_eq_some_iff.2 ⟨ds, h, rfl⟩

theorem Hex4.lt {cs : List Char} {n : Nat} (h : Hex4 cs n) : n < 0x10000 := by
  have below := Text.ofDigits_lt h.digits
  rw [h.value, h.count] at below
  exact below

/-! ## Characters -/

/-- The number of a character after a backslash and `u`. -/
theorem unicodeEscape?_unit {ds rest : List Char} {c : Char} (h : Hex4 ds c.toNat) :
    unicodeEscape? (ds ++ rest) = some (c, rest) := by
  have alone : c.toNat < 0xD800 ∨ 0xDFFF < c.toNat := (toNat_cases c).imp_right And.left
  simp only [unicodeEscape?, h.read, alone, if_true, Char.ofNat_toNat]

/-- A pair of surrogates after a backslash and `u`. -/
theorem unicodeEscape?_pair {ds es rest : List Char} {high low : Nat} {c : Char}
    (first : Hex4 ds high) (second : Hex4 es low) (highs : 0xD800 ≤ high ∧ high ≤ 0xDBFF)
    (lows : 0xDC00 ≤ low ∧ low ≤ 0xDFFF)
    (value : c.toNat = 0x10000 + (high - 0xD800) * 0x400 + (low - 0xDC00)) :
    unicodeEscape? (ds ++ '\\' :: 'u' :: (es ++ rest)) = some (c, rest) := by
  have paired : ¬ (high < 0xD800 ∨ 0xDFFF < high) := by omega
  have leads : ¬ 0xDC00 ≤ high := by omega
  simp only [unicodeEscape?, first.read, second.read, paired, leads, lows, if_false, if_true,
    and_self, surrogatePair, ← value, Char.ofNat_toNat]

/-- What is read after a backslash and `u` is the number of a character or a pair. -/
theorem charText_of_unicodeEscape? {cs rest : List Char} {c : Char}
    (h : unicodeEscape? cs = some (c, rest)) :
    ∃ ds, CharText c ('\\' :: 'u' :: ds) ∧ cs = ds ++ rest := by
  unfold unicodeEscape? at h
  cases read : hex4? cs with
  | none => simp [read] at h
  | some r =>
    obtain ⟨n, tail⟩ := r
    obtain ⟨ds, first, rfl⟩ := hex4?_eq_some_iff.1 read
    simp only [read] at h
    by_cases alone : n < 0xD800 ∨ 0xDFFF < n
    · rw [if_pos alone, Option.some.injEq, Prod.mk.injEq] at h
      obtain ⟨rfl, rfl⟩ := h
      have small := first.lt
      have value : (Char.ofNat n).toNat = n := toNat_ofNat (by omega)
      exact ⟨ds, .unit (value.symm ▸ first), rfl⟩
    · rw [if_neg alone] at h
      by_cases trails : 0xDC00 ≤ n
      · rw [if_pos trails] at h
        cases h
      · rw [if_neg trails] at h
        split at h
        · next after =>
          cases read' : hex4? after with
          | none => simp [read'] at h
          | some r =>
            obtain ⟨low, tail'⟩ := r
            obtain ⟨es, second, rfl⟩ := hex4?_eq_some_iff.1 read'
            simp only [read', Option.ite_none_right_eq_some, Option.some.injEq,
              Prod.mk.injEq] at h
            obtain ⟨lows, rfl, rfl⟩ := h
            have value : (surrogatePair n low).toNat =
                0x10000 + (n - 0xD800) * 0x400 + (low - 0xDC00) := toNat_ofNat (by omega)
            exact ⟨ds ++ '\\' :: 'u' :: es, .pair first second (by omega) lows value, by simp⟩
        · cases h

theorem letterEscape?_eq_some_iff {l c : Char} :
    letterEscape? l = some c ↔ (l, c) ∈ letterEscapes := by
  constructor
  · intro h
    unfold letterEscape? at h
    split at h <;> cases h <;> simp [letterEscapes]
  · intro h
    simp only [letterEscapes, List.mem_cons, Prod.mk.injEq, List.not_mem_nil, or_false] at h
    rcases h with ⟨rfl, rfl⟩ | ⟨rfl, rfl⟩ | ⟨rfl, rfl⟩ | ⟨rfl, rfl⟩ | ⟨rfl, rfl⟩ | ⟨rfl, rfl⟩ |
      ⟨rfl, rfl⟩ | ⟨rfl, rfl⟩ <;> rfl

theorem stringChar?_letter {l : Char} (h : l ≠ 'u') (rest : List Char) :
    stringChar? ('\\' :: l :: rest) = (letterEscape? l).map fun c => (c, rest) := by
  unfold stringChar?
  split
  · next eq =>
    cases eq
    exact absurd rfl h
  · next eq =>
    cases eq
    rfl
  · next eq => cases eq
  · next escaped _ eq =>
    cases eq
    exact absurd rfl (escaped l rest rfl)
  · next eq => cases eq

theorem stringChar?_plain {c : Char} (h : c ≠ '\\') (rest : List Char) :
    stringChar? (c :: rest) = if c = '"' ∨ c.toNat < 0x20 then none else some (c, rest) := by
  unfold stringChar?
  split
  · next eq =>
    cases eq
    exact absurd rfl h
  · next eq =>
    cases eq
    exact absurd rfl h
  · next eq =>
    cases eq
    exact absurd rfl h
  · next eq =>
    cases eq
    rfl
  · next eq => cases eq

/-- A character is read exactly from its spellings. -/
theorem stringChar?_eq_some_iff {cs rest : List Char} {c : Char} :
    stringChar? cs = some (c, rest) ↔ ∃ ds, CharText c ds ∧ cs = ds ++ rest := by
  constructor
  · intro h
    cases cs with
    | nil => cases h
    | cons d tail =>
      by_cases backslash : d = '\\'
      · subst backslash
        cases tail with
        | nil => cases h
        | cons l tail =>
          by_cases unit : l = 'u'
          · subst unit
            obtain ⟨ds, text, rfl⟩ := charText_of_unicodeEscape? h
            exact ⟨_, text, rfl⟩
          · rw [stringChar?_letter unit, Option.map_eq_some_iff] at h
            obtain ⟨d, escape, eq⟩ := h
            cases eq
            exact ⟨_, .letter (letterEscape?_eq_some_iff.1 escape), rfl⟩
      · rw [stringChar?_plain backslash, Option.ite_none_left_eq_some, Option.some.injEq,
          Prod.mk.injEq, not_or] at h
        obtain ⟨⟨quote, printable⟩, rfl, rfl⟩ := h
        exact ⟨[d], .plain quote backslash (Nat.le_of_not_lt printable), rfl⟩
  · rintro ⟨ds, text, rfl⟩
    cases text with
    | plain quote backslash printable =>
      have bare : ¬ (c = '"' ∨ c.toNat < 0x20) := by
        rw [not_or]
        exact ⟨quote, Nat.not_lt.2 printable⟩
      rw [List.singleton_append, stringChar?_plain backslash, if_neg bare]
    | @letter l _ escape =>
      have letter := letterEscape?_eq_some_iff.2 escape
      have plain : l ≠ 'u' := by
        rintro rfl
        cases letter
      rw [List.cons_append, List.singleton_append, stringChar?_letter plain, letter]
      rfl
    | unit hex => exact unicodeEscape?_unit hex
    | pair first second highs lows value =>
      have read := @unicodeEscape?_pair _ _ rest _ _ _ first second highs lows value
      simpa [stringChar?] using read

/-- No spelling of a character begins with a quote. -/
theorem CharText.ne_quote {c : Char} {ds rest cs : List Char} (h : CharText c ds) :
    ds ++ rest ≠ '"' :: cs := by
  cases h with
  | plain quote => simp [quote]
  | letter | unit | pair => simp

/-! ## Strings -/

theorem stringTail?_of_stringChar? {cs tail : List Char} {c : Char} (quote : ∀ ds, cs ≠ '"' :: ds)
    (h : stringChar? cs = some (c, tail)) :
    stringTail? cs = (stringTail? tail).map fun r => (c :: r.1, r.2) := by
  rw [stringTail?.eq_def]
  split
  · next ds => exact absurd rfl (quote ds)
  · split
    · next c' tail' h' =>
      rw [h, Option.some.injEq, Prod.mk.injEq] at h'
      obtain ⟨rfl, rfl⟩ := h'
      rfl
    · next h' =>
      rw [h] at h'
      cases h'

/-- A string is read exactly from its spellings, up to the quote that ends it. -/
theorem stringTail?_eq_some_iff {cs rest s : List Char} :
    stringTail? cs = some (s, rest) ↔ ∃ ds, StringText s ds ∧ cs = ds ++ '"' :: rest := by
  constructor
  · intro h
    induction hn : cs.length using Nat.strongRecOn generalizing cs s with
    | ind n ih =>
      rw [stringTail?.eq_def] at h
      split at h
      · cases h
        exact ⟨[], .nil, rfl⟩
      · split at h
        · next c tail first =>
          rw [Option.map_eq_some_iff] at h
          obtain ⟨⟨s', rest'⟩, later, eq⟩ := h
          cases eq
          obtain ⟨ds, text, rfl⟩ := ih tail.length (hn ▸ length_of_stringChar? first) later rfl
          obtain ⟨es, spelled, rfl⟩ := stringChar?_eq_some_iff.1 first
          exact ⟨es ++ ds, .cons spelled text, (List.append_assoc ..).symm⟩
        · cases h
  · rintro ⟨ds, text, rfl⟩
    induction text with
    | nil => simp [stringTail?]
    | @cons c s es ds first text ih =>
      rw [List.append_assoc, stringTail?_of_stringChar? (fun _ => first.ne_quote)
        (stringChar?_eq_some_iff.2 ⟨es, first, rfl⟩), ih]
      rfl

/-- A string without quotes, backslashes and controls may be written as it is. -/
theorem StringText.plain {s : List Char}
    (h : ∀ c ∈ s, c ≠ '"' ∧ c ≠ '\\' ∧ 0x20 ≤ c.toNat) : StringText s s := by
  induction s with
  | nil => exact .nil
  | cons c s ih =>
    obtain ⟨quote, backslash, printable⟩ := h c List.mem_cons_self
    exact .cons (.plain quote backslash printable) (ih fun d hd => h d (List.mem_cons_of_mem _ hd))

end WebCall.Json
