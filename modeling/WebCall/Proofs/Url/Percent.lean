import WebCall.Proofs.Text.Utf8
import WebCall.Url.Percent

/-!
# What percent encoding leaves

An encoded text has no character of its set, so encoding it again leaves it as it is. Where a text
is decoded, a character of ASCII that is neither a percent sign nor a digit stands for its own byte,
whatever stands in front of it.

## Main definitions

* `encode_eq_self`: a text without a character of the set is encoded as it is.
* `decode_ascii`, `decode_append_cons`: what is decoded.
-/
namespace WebCall.Url

variable {set : Char → Bool} {cs : List Char}

/-- What holds of the characters outside the set, of the percent sign and of the hexadecimal digits
holds of an encoded text. -/
theorem forall_mem_encode {p : Char → Prop} (percent : p '%') (digit : ∀ n < 16, p (hexDigit n))
    (plain : ∀ c ∈ cs, set c = false → p c) : ∀ c ∈ encode set cs, p c := by
  intro c hc
  obtain ⟨d, hd, hc⟩ := List.mem_flatMap.1 hc
  rw [encodeChar] at hc
  split at hc
  · obtain ⟨b, -, hc⟩ := List.mem_flatMap.1 hc
    have below : b.toNat < 256 := b.toNat_lt
    simp only [percentByte, List.mem_cons, List.not_mem_nil, or_false] at hc
    rcases hc with rfl | rfl | rfl
    · exact percent
    · exact digit _ (by omega)
    · exact digit _ (by omega)
  · next outside =>
    obtain rfl := List.mem_singleton.1 hc
    exact plain c hd (by simpa using outside)

/-- A text that is encoded for a part of a URL has no blanks and controls. -/
theorem solid_of_mem_encode (controls : ∀ c, isControl c = true → set c = true)
    (space : set ' ' = true) : ∀ c ∈ encode set cs, 0x20 < c.toNat := by
  refine forall_mem_encode (by decide) (by decide) fun c _ outside => ?_
  have control : isControl c = false := by
    cases control : isControl c with
    | false => rfl
    | true =>
      rw [controls c control] at outside
      cases outside
  have blank : c.toNat ≠ ' '.toNat := by
    intro same
    rw [Char.toNat_inj.1 same, space] at outside
    cases outside
  have low : ¬ c.toNat < 0x20 := by
    simp only [isControl, Bool.or_eq_false_iff, decide_eq_false_iff_not] at control
    exact control.1
  have code : ' '.toNat = 0x20 := rfl
  omega

/-- A text without characters of the set is left as it is. -/
theorem encode_eq_self (plain : ∀ c ∈ cs, set c = false) : encode set cs = cs := by
  induction cs with
  | nil => rfl
  | cons c cs ih =>
    have first : set c = false := plain c List.mem_cons_self
    have later := ih fun d hd => plain d (List.mem_cons_of_mem c hd)
    rw [encode] at later
    rw [encode, List.flatMap_cons, later, encodeChar, first]
    rfl

/-- A text of ASCII without percent signs stands for itself. -/
theorem decode_ascii (ascii : Utf8.IsAscii cs) (plain : '%' ∉ cs) : decode cs = Utf8.ascii cs := by
  fun_induction decode cs with
  | case1 => rfl
  | case2 a b rest | case3 a b rest => simp at plain
  | case4 c rest _ ih =>
    have first : c.toNat < 0x80 := ascii c List.mem_cons_self
    have later := ih (fun d hd => ascii d (List.mem_cons_of_mem c hd))
      fun hd => plain (List.mem_cons_of_mem c hd)
    rw [later, Utf8.encode_singleton first]
    rfl

/-- A character that does not begin an encoded byte stands for its own bytes. -/
theorem decode_cons {c : Char} {rest : List Char} (alone : c = '%' → ∀ a b tail,
      rest = a :: b :: tail → (Text.isDigitOf 16 a && Text.isDigitOf 16 b) = false) :
    decode (c :: rest) = Utf8.encode (String.singleton c) ++ decode rest := by
  by_cases pair : ∃ a b tail, c = '%' ∧ rest = a :: b :: tail
  · obtain ⟨a, b, tail, rfl, rfl⟩ := pair
    rw [decode, if_neg (by simp [alone rfl a b tail rfl])]
    rfl
  · rw [decode]
    rintro a b tail rfl rfl
    exact pair ⟨a, b, tail, rfl, rfl⟩

/-- A character of ASCII that has no part in an encoded byte stands for itself. -/
theorem decode_append_cons {c : Char} (ascii : c.toNat < 0x80) (solid : c ≠ '%')
    (other : Text.isDigitOf 16 c = false) (before after : List Char) :
    decode (before ++ c :: after) = decode before ++ UInt8.ofNat c.toNat :: decode after := by
  fun_induction decode before with
  | case1 =>
    rw [List.nil_append, decode_cons fun same => absurd same solid, Utf8.encode_singleton ascii]
    rfl
  | case2 a b rest digits ih =>
    rw [List.cons_append, List.cons_append, List.cons_append, decode, if_pos digits, ih]
    rfl
  | case3 a b rest digits ih =>
    rw [List.cons_append, decode_cons ?_, ih, List.append_assoc]
    · rfl
    · rintro - a' b' tail ⟨⟩
      simpa using digits
  | case4 d rest shape ih =>
    rw [List.cons_append, decode_cons ?_, ih, List.append_assoc]
    -- The character cannot complete a byte that a percent sign at the end would begin.
    rintro rfl a b tail pair
    rcases rest with _ | ⟨e, _ | ⟨f, rest⟩⟩
    · cases pair
      simp [other]
    · cases pair
      simp [other]
    · exact (shape e f rest rfl rfl).elim

end WebCall.Url
