import WebCall.Proofs.Text.Trim
import WebCall.Proofs.Url.Ipv4
import WebCall.Proofs.Url.Ipv6
import WebCall.Proofs.Url.Percent
import WebCall.Url.Host

/-!
# Hosts are read back

The host of a special scheme is a name in small letters without forbidden characters, or an address,
and its text is read as the same host. A blank or a control at its end is never forgiven: no such
text is a host.

## Main definitions

* `Host.Normal`: what can be read.
* `Host.ofSpecial_text`: a host is read back.
* `Host.ofSpecial_append_ne_ok`: what cannot stand at the end.
-/
namespace WebCall.Url

namespace Host

/-- What can be read as the host of a special scheme. -/
def Normal : Host → Prop
  | name text => text ≠ [] ∧ domain? text = some text ∧ endsInNumber text = false
  | ipv4 address => address < 2 ^ 32
  | ipv6 pieces => IsIpv6 pieces

/-! ## Names -/

/-- Where a character of a name can be. -/
theorem plain_of_allowed {c : Char} (h : isForbiddenInDomain c = false) :
    0x20 < c.toNat ∧ c.toNat < 0x7F ∧ c ∉ ['%', '#', '/', ':', '?', '@', '[', '\\'] := by
  simp only [isForbiddenInDomain, isControl, isForbidden, Bool.or_eq_false_iff,
    decide_eq_false_iff_not, List.contains_eq_mem, beq_eq_false_iff_ne, List.mem_cons,
    List.not_mem_nil, or_false, not_or] at h ⊢
  have blank : c.toNat ≠ ' '.toNat := fun same => h.1.1.2.2.2.2.1 (Char.toNat_inj.1 same)
  have space : ' '.toNat = 0x20 := rfl
  exact ⟨by omega, by omega, by grind⟩

/-- What a name has to be. -/
theorem domain?_eq_some_iff {cs domain : List Char} :
    domain? cs = some domain ↔ ∃ s, Utf8.decode? (decode cs) = some s ∧
      domain = s.toList.map Text.lower ∧ (∀ c ∈ domain, isForbiddenInDomain c = false) ∧
      ∀ label ∈ Text.pieces '.' domain, isLabel label = true := by
  rw [domain?]
  cases Utf8.decode? (decode cs) with
  | none => simp
  | some s =>
    simp only [Option.ite_none_left_eq_some, Bool.or_eq_true, Bool.not_eq_true', not_or,
      Bool.not_eq_true, List.any_eq_false, Bool.not_eq_false, List.all_eq_true, Option.some.injEq]
    constructor
    · rintro ⟨⟨allowed, labels⟩, rfl⟩
      exact ⟨s, rfl, rfl, allowed, labels⟩
    · rintro ⟨_, rfl, rfl, allowed, labels⟩
      exact ⟨⟨allowed, labels⟩, rfl⟩

theorem ascii_of_allowed {cs : List Char} (h : ∀ c ∈ cs, isForbiddenInDomain c = false) :
    Utf8.IsAscii cs := by
  intro c hc
  have plain := plain_of_allowed (h c hc)
  omega

/-- A name without forbidden characters, capitals and labels in ASCII form stands for itself. -/
theorem domain?_eq_self {cs : List Char} (allowed : ∀ c ∈ cs, isForbiddenInDomain c = false)
    (small : cs.map Text.lower = cs) (labels : ∀ label ∈ Text.pieces '.' cs, isLabel label = true) :
    domain? cs = some cs := by
  have percent : '%' ∉ cs := fun hc => by simpa using (plain_of_allowed (allowed _ hc)).2.2
  refine domain?_eq_some_iff.2 ⟨.ofList cs, ?_, ?_, allowed, labels⟩
  · rw [decode_ascii (ascii_of_allowed allowed) percent,
      Utf8.decode?_ascii (ascii_of_allowed allowed)]
  · rw [String.toList_ofList, small]

/-- A name that is read is in normal form. -/
theorem domain?_of_domain? {cs domain : List Char} (h : domain? cs = some domain) :
    domain? domain = some domain := by
  obtain ⟨s, -, rfl, allowed, labels⟩ := domain?_eq_some_iff.1 h
  refine domain?_eq_self allowed ?_ labels
  rw [List.map_map]
  exact List.map_congr_left fun c _ => Text.lower_lower c

/-! ## Reading back -/

/-- What is read outside brackets is a name or an address of 32 bits. -/
theorem ofSpecial_of_domain? {cs domain : List Char} (unbracketed : cs.head? ≠ some '[')
    (read : domain? cs = some domain) (some_ : domain ≠ []) :
    ofSpecial cs =
      if endsInNumber domain then
        match ipv4? domain with
        | some address => .ok (.ipv4 address)
        | none => .error .ipv4
      else .ok (.name domain) := by
  obtain ⟨d, domain, rfl⟩ := List.exists_cons_of_ne_nil some_
  unfold ofSpecial
  split
  · next rest => exact absurd rfl unbracketed
  · generalize domain? cs = found at read ⊢
    subst read
    rfl

/-- What is read is in normal form. -/
theorem normal_of_ofSpecial {cs : List Char} {h : Host} (read : ofSpecial cs = .ok h) :
    h.Normal := by
  unfold ofSpecial at read
  split at read
  · next rest =>
    rw [bracketed] at read
    split at read
    · split at read
      · next pieces address =>
        cases read
        exact isIpv6_of_ipv6? address
      · cases read
    · cases read
  · split at read
    · cases read
    · cases read
    · next domain some_ found =>
      split at read
      · split at read
        · next address number =>
          cases read
          exact ipv4?_lt number
        · cases read
      · next nameLike =>
        cases read
        exact ⟨fun empty => some_ empty, domain?_of_domain? found, by simpa using nameLike⟩

/-- An address is a name, as far as its characters go. -/
theorem domain?_ipv4Text (n : Nat) : domain? (ipv4Text n).toList = some (ipv4Text n).toList := by
  have digit {c : Char} (h : Text.isDigit c = true) :
      isForbiddenInDomain c = false ∧ Text.lower c = c := Text.of_isDigit h (by decide)
  refine domain?_eq_self ?_ ?_ ?_
  · intro c hc
    rcases of_mem_ipv4Text hc with rfl | h
    · decide
    · exact (digit h).1
  · refine (List.map_congr_left fun c hc => ?_).trans (List.map_id _)
    rcases of_mem_ipv4Text hc with rfl | h
    · decide
    · exact (digit h).2
  · intro label hl
    rw [pieces_ipv4Text] at hl
    obtain ⟨b, -, rfl⟩ := List.mem_map.1 hl
    have unled : asciiLead.isPrefixOf (Nat.toDigits 10 b) = false := by
      by_contra lead
      rw [Bool.not_eq_false, List.isPrefixOf_iff_prefix] at lead
      have x : 'x' ∈ Nat.toDigits 10 b := lead.subset List.mem_cons_self
      exact absurd (Text.isDigit_of_mem_toDigits x) (by decide)
    rw [isLabel, unled]
    rfl

/-- A host in normal form is read back from its text. -/
theorem ofSpecial_text {h : Host} (normal : h.Normal) : ofSpecial h.text = .ok h := by
  cases h with
  | name text =>
    obtain ⟨some_, read, nameLike⟩ := normal
    have unbracketed : text.head? ≠ some '[' := by
      intro first
      obtain ⟨-, -, -, allowed, -⟩ := domain?_eq_some_iff.1 read
      simpa using (plain_of_allowed (allowed '[' (List.mem_of_head? first))).2.2
    rw [Host.text, ofSpecial_of_domain? unbracketed read some_, nameLike]
    rfl
  | ipv4 address =>
    have number := ipv4?_ipv4Text normal
    have unbracketed : (ipv4Text address).toList.head? ≠ some '[' := by
      intro first
      rcases of_mem_ipv4Text (List.mem_of_head? first) with h | h
      · cases h
      · exact absurd h (by decide)
    rw [Host.text, ofSpecial_of_domain? unbracketed (domain?_ipv4Text address)
      (toList_ipv4Text_ne_nil address), endsInNumber_ipv4Text, number]
    rfl
  | ipv6 pieces =>
    rw [Host.text, List.cons_append, ofSpecial, bracketed, List.getLast?_concat, if_pos rfl,
      List.dropLast_concat, ipv6?_ipv6Text normal]

section Outer

variable {c : Char} {after : List Char}

/-- No name has a blank or a control in it. -/
theorem domain?_append_cons (outer : c.toNat ≤ 0x20) (cs : List Char) :
    domain? (cs ++ c :: after) = none := by
  rw [Option.eq_none_iff_forall_ne_some]
  intro domain found
  obtain ⟨s, text, rfl, allowed, -⟩ := domain?_eq_some_iff.1 found
  have solid : c ≠ '%' := by
    rintro rfl
    exact absurd outer (by decide)
  have other : Text.isDigitOf 16 c = false := by
    by_contra digit
    rw [Bool.not_eq_false] at digit
    have low := Text.le_toNat_of_isDigitOf digit
    omega
  rw [decode_append_cons (by omega) solid other] at text
  have mem := Utf8.mem_of_decode?_append_cons (by omega) text
  have kept := plain_of_allowed (allowed _ (List.mem_map_of_mem mem))
  rcases Text.lower_cases c with same | ⟨low, -, -⟩
  · rw [same] at kept
    omega
  · omega

/-- A bracket that is closed by the last character is closed by no blank or control. -/
theorem bracketed_append_ne_ok (outer : c.toNat ≤ 0x20) (outers : ∀ d ∈ after, d.toNat ≤ 0x20)
    (cs : List Char) (h : Host) : bracketed (cs ++ c :: after) ≠ .ok h := by
  have last : (cs ++ c :: after).getLast? ≠ some ']' := by
    intro closing
    rw [List.getLast?_append_of_ne_nil _ (List.cons_ne_nil c after)] at closing
    rcases List.mem_cons.1 (List.mem_of_getLast? closing) with rfl | later
    · exact absurd outer (by decide)
    · exact absurd (outers _ later) (by decide)
  rw [bracketed, if_neg last]
  exact nofun

/-- No host ends with a blank or a control. -/
theorem ofSpecial_append_ne_ok (outer : c.toNat ≤ 0x20) (outers : ∀ d ∈ after, d.toNat ≤ 0x20)
    (cs : List Char) (h : Host) : ofSpecial (cs ++ c :: after) ≠ .ok h := by
  intro read
  unfold ofSpecial at read
  split at read
  · next rest bracket =>
    cases cs with
    | nil =>
      cases bracket
      exact absurd outer (by decide)
    | cons d cs =>
      rw [List.cons_append, List.cons.injEq] at bracket
      obtain ⟨rfl, rfl⟩ := bracket
      exact bracketed_append_ne_ok outer outers cs h read
  · rw [domain?_append_cons outer] at read
    cases read

end Outer

/-! ## Characters -/

theorem text_ne_nil {h : Host} (normal : h.Normal) : h.text ≠ [] := by
  cases h with
  | name text => exact normal.1
  | ipv4 address => exact toList_ipv4Text_ne_nil address
  | ipv6 pieces => exact List.cons_ne_nil _ _

/-- What no character of a host is, outside brackets or in them. -/
theorem solid_of_mem_text {h : Host} (normal : h.Normal) {c : Char} (hc : c ∈ h.text) :
    0x20 < c.toNat ∧ c ∉ ['#', '/', '?', '@', '\\'] := by
  cases h with
  | name text =>
    obtain ⟨-, -, -, allowed, -⟩ := domain?_eq_some_iff.1 normal.2.1
    have plain := plain_of_allowed (allowed c hc)
    exact ⟨plain.1, by grind⟩
  | ipv4 address =>
    rcases of_mem_ipv4Text hc with rfl | h
    · decide
    · exact Text.of_isDigit h (by decide)
  | ipv6 pieces =>
    have digit (h : Text.isDigitOf 16 c = true) : 0x20 < c.toNat ∧ c ∉ ['#', '/', '?', '@', '\\'] := by
      have low := Text.le_toNat_of_isDigitOf h
      refine ⟨by omega, fun mem => ?_⟩
      simp only [List.mem_cons, List.not_mem_nil, or_false] at mem
      rcases mem with rfl | rfl | rfl | rfl | rfl <;> cases h
    rw [Host.text, List.mem_append, List.mem_cons, List.mem_singleton] at hc
    rcases hc with (rfl | hc) | rfl
    · decide
    · rcases of_mem_ipv6Text hc with rfl | h
      · decide
      · exact digit h
    · decide

end Host

end WebCall.Url
