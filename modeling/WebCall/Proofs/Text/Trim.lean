import Mathlib.Data.List.DropRight
import Mathlib.Data.List.TakeWhile
import WebCall.Proofs.Text.Pieces
import WebCall.Text.Blank

/-!
# Trimming and separators

Trimming takes blanks and nothing else, and doing it twice is doing it once. Where a separator is no
blank, it makes no difference to the part before the first separator whether the whole text was
trimmed first. The case of ASCII letters makes no difference to any of this.
-/
namespace WebCall.Text

/-! ## Trimming -/

@[simp] theorem trimLeft_trimLeft (cs : List Char) : trimLeft (trimLeft cs) = trimLeft cs :=
  List.dropWhile_idempotent isBlank cs

@[simp] theorem trimRight_trimRight (cs : List Char) : trimRight (trimRight cs) = trimRight cs :=
  List.rdropWhile_idempotent isBlank cs

/-- What the end of a text loses is blank. -/
theorem exists_blanks_eq_trimRight_append (cs : List Char) :
    ∃ blanks, (∀ c ∈ blanks, isBlank c = true) ∧ cs = trimRight cs ++ blanks :=
  ⟨cs.rtakeWhile isBlank, fun _ hc => List.mem_rtakeWhile_imp hc,
    List.rdropWhile_append_rtakeWhile.symm⟩

/-- A text that loses nothing at its start does not begin with a blank. -/
theorem isBlank_eq_false_of_trimLeft {c : Char} {cs : List Char}
    (h : trimLeft (c :: cs) = c :: cs) : isBlank c = false := by
  by_contra blank
  have shorter := (List.dropWhile_sublist isBlank (l := cs)).length_le
  rw [trimLeft, List.dropWhile_cons_of_pos (by simpa using blank)] at h
  rw [h, List.length_cons] at shorter
  omega

/-- The end of a text that does not begin with a blank can be trimmed without uncovering one. -/
theorem trimLeft_trimRight_of_trimLeft {cs : List Char} (h : trimLeft cs = cs) :
    trimLeft (trimRight cs) = trimRight cs := by
  cases cs with
  | nil => rfl
  | cons c cs =>
    have first : isBlank c = false := isBlank_eq_false_of_trimLeft h
    obtain ⟨rest, hrest⟩ : trimRight (c :: cs) <+: c :: cs := List.rdropWhile_prefix isBlank _
    cases ht : trimRight (c :: cs) with
    | nil => rfl
    | cons d ds =>
      rw [ht, List.cons_append, List.cons.injEq] at hrest
      rw [trimLeft, List.dropWhile_cons_of_neg (by simp [hrest.1, first])]

@[simp] theorem trimLeft_trimBoth (cs : List Char) : trimLeft (trimBoth cs) = trimBoth cs :=
  trimLeft_trimRight_of_trimLeft (trimLeft_trimLeft cs)

@[simp] theorem trimBoth_trimBoth (cs : List Char) : trimBoth (trimBoth cs) = trimBoth cs := by
  rw [trimBoth, trimLeft_trimBoth, trimBoth, trimRight_trimRight]

/-- A blank in front of a text is trimmed away. -/
theorem trimBoth_cons_of_isBlank {c : Char} (h : isBlank c = true) (cs : List Char) :
    trimBoth (c :: cs) = trimBoth cs := by
  rw [trimBoth, trimLeft, List.dropWhile_cons_of_pos h]
  rfl

/-- What follows a text keeps the end of it from being trimmed, unless it is all blank. -/
theorem trimRight_append (a b : List Char) :
    trimRight (a ++ b) = if trimRight b = [] then trimRight a else a ++ trimRight b := by
  rw [trimRight, List.reverse_append, List.dropWhile_append]
  by_cases h : trimRight b = []
  · rw [if_pos h]
    rw [trimRight, List.reverse_eq_nil_iff] at h
    rw [h]
    rfl
  · have some_ : (b.reverse.dropWhile isBlank).isEmpty = false := by
      rw [trimRight, List.reverse_eq_nil_iff] at h
      simpa using h
    rw [if_neg h, some_]
    simp [trimRight]

/-- The start of a text is kept when it neither begins nor ends with a blank. -/
theorem prefix_trimBoth {lead cs : List Char} (left : trimLeft lead = lead)
    (right : trimRight lead = lead) (some_ : lead ≠ []) (h : lead <+: cs) : lead <+: trimBoth cs := by
  obtain ⟨rest, rfl⟩ := h
  obtain ⟨c, lead, rfl⟩ := List.exists_cons_of_ne_nil some_
  have solid : isBlank c = false := isBlank_eq_false_of_trimLeft left
  have kept : trimLeft (c :: lead ++ rest) = c :: lead ++ rest := by
    rw [trimLeft, List.cons_append, List.dropWhile_cons_of_neg (by simp [solid])]
  rw [trimBoth, kept, trimRight_append, right]
  split
  · exact List.prefix_rfl
  · exact List.prefix_append _ _

/-- The end of a text can be trimmed first. -/
@[simp] theorem trimBoth_trimRight (cs : List Char) : trimBoth (trimRight cs) = trimBoth cs := by
  obtain ⟨blanks, blank, hcs⟩ := exists_blanks_eq_trimRight_append cs
  have gone : trimLeft blanks = [] := List.dropWhile_eq_nil_iff.2 blank
  have none_ : trimRight blanks = [] := List.rdropWhile_eq_nil_iff.2 blank
  conv_rhs => rw [hcs]
  rw [trimBoth, trimBoth]
  by_cases h : trimLeft (trimRight cs) = []
  · have all : trimLeft (trimRight cs ++ blanks) = [] := by
      rw [trimLeft, List.dropWhile_append]
      rw [trimLeft] at h gone
      simp [h, gone]
    rw [h, all]
  · have front : trimLeft (trimRight cs ++ blanks) = trimLeft (trimRight cs) ++ blanks := by
      rw [trimLeft, List.dropWhile_append]
      rw [trimLeft] at h
      simp [h, trimLeft]
    rw [front, trimRight_append, if_pos none_]

/-- The front of a text can be trimmed first. -/
@[simp] theorem trimBoth_trimLeft (cs : List Char) : trimBoth (trimLeft cs) = trimBoth cs := by
  rw [trimBoth, trimLeft_trimLeft, trimBoth]

/-- A character that is no blank keeps what stands next to it: only the ends of a text around it are
trimmed. -/
theorem trimBoth_append_cons {c : Char} (solid : isBlank c = false) (a b : List Char) :
    trimBoth (a ++ c :: b) = trimLeft a ++ c :: trimRight b := by
  have front : trimLeft (a ++ c :: b) = trimLeft a ++ c :: b := dropWhile_append_cons solid a b
  have back : trimRight (trimLeft a ++ c :: b) = trimLeft a ++ c :: trimRight b := by
    simp [trimRight, dropWhile_append_cons solid]
  rw [trimBoth, front, back]

theorem trimBoth_sublist (cs : List Char) : (trimBoth cs).Sublist cs :=
  (List.rdropWhile_prefix isBlank _).sublist.trans (List.dropWhile_sublist isBlank)

/-- What a text loses at its two ends is blank. -/
theorem exists_blanks_eq_trimBoth (cs : List Char) :
    ∃ lead trail, (∀ c ∈ lead, isBlank c = true) ∧ (∀ c ∈ trail, isBlank c = true) ∧
      cs = lead ++ (trimBoth cs ++ trail) := by
  obtain ⟨trail, blank, split⟩ := exists_blanks_eq_trimRight_append (trimLeft cs)
  refine ⟨cs.takeWhile isBlank, trail, fun c hc => List.mem_takeWhile_imp hc, blank, ?_⟩
  rw [trimBoth, ← split]
  exact List.takeWhile_append_dropWhile.symm

/-- Between blanks a text without any is all that is left. -/
theorem trimBoth_append_of_blank {lead cs trail : List Char} (blank : ∀ c ∈ lead, isBlank c = true)
    (blank' : ∀ c ∈ trail, isBlank c = true) (nonempty : cs ≠ [])
    (solid : ∀ c ∈ cs, isBlank c = false) : trimBoth (lead ++ (cs ++ trail)) = cs := by
  have none_ : trimRight trail = [] := List.rdropWhile_eq_nil_iff.2 blank'
  have last : trimRight cs = cs :=
    List.rdropWhile_eq_self_iff.2 fun h => by simp [solid _ (List.getLast_mem h)]
  obtain ⟨c, rest, rfl⟩ := List.exists_cons_of_ne_nil nonempty
  have first : ¬ isBlank c = true := by simp [solid c List.mem_cons_self]
  rw [trimBoth, trimLeft, List.dropWhile_append_of_pos blank, List.cons_append,
    List.dropWhile_cons_of_neg first, ← List.cons_append, trimRight_append, if_pos none_, last]

/-- Nothing is left of a text exactly when there is nothing in it but blanks. -/
theorem trimBoth_eq_nil_iff {cs : List Char} :
    trimBoth cs = [] ↔ ∀ c ∈ cs, isBlank c = true := by
  rw [← List.dropWhile_eq_nil_iff]
  constructor
  · intro h
    have blank : ∀ c ∈ trimLeft cs, isBlank c = true := List.rdropWhile_eq_nil_iff.1 h
    rw [← List.dropWhile_eq_nil_iff] at blank
    exact (trimLeft_trimLeft cs).symm.trans blank
  · intro h
    rw [trimBoth, trimLeft, h]
    rfl

theorem isAllBlank_iff {s : String} : isAllBlank s = true ↔ ∀ c ∈ s.toList, isBlank c = true := by
  rw [isAllBlank, List.isEmpty_iff, trimBoth_eq_nil_iff]

/-! ## The parts around a separator -/

/-- The part before the first separator; the whole text without one. -/
def upTo (sep : Char) (cs : List Char) : List Char := cs.takeWhile (· != sep)

/-- The part after the first separator; nothing without one. -/
def past (sep : Char) (cs : List Char) : List Char := (cs.dropWhile (· != sep)).tail

theorem bne_of_notMem {sep : Char} {cs : List Char} (h : sep ∉ cs) :
    ∀ c ∈ cs, (c != sep) = true := by
  intro c hc
  have other : c ≠ sep := fun same => h (same ▸ hc)
  simpa using other

/-- A text without a separator is the part before it. -/
theorem upTo_of_notMem {sep : Char} {cs : List Char} (h : sep ∉ cs) : upTo sep cs = cs :=
  List.takeWhile_eq_self_iff.2 (bne_of_notMem h)

/-- What stands in front of a separator has all of the part before the first one. -/
theorem upTo_append_cons (sep : Char) (a b : List Char) : upTo sep (a ++ sep :: b) = upTo sep a :=
  takeWhile_append_cons (by simp) a b

theorem past_append_cons {sep : Char} {a : List Char} (first : sep ∉ a) (b : List Char) :
    past sep (a ++ sep :: b) = b := by
  have none_ : a.dropWhile (· != sep) = [] := List.dropWhile_eq_nil_iff.2 (bne_of_notMem first)
  rw [past, dropWhile_append_cons (by simp), none_, List.nil_append, List.tail_cons]

/-- A text with a separator is cut into the part before the first one and the part after it. -/
theorem splitFirst?_eq (sep : Char) (cs : List Char) :
    splitFirst? sep cs = if sep ∈ cs then some (upTo sep cs, past sep cs) else none := by
  split
  · next mem =>
    obtain ⟨a, b, rfl, first⟩ := List.eq_append_cons_of_mem mem
    rw [upTo_append_cons, upTo_of_notMem first, past_append_cons first]
    exact splitFirst?_eq_some_iff.2 ⟨rfl, first⟩
  · next none_ => exact splitFirst?_eq_none none_

/-- The whole text may be trimmed before the cut, if the part is trimmed after it. -/
theorem trimBoth_upTo_trimBoth {sep : Char} (solid : isBlank sep = false) (cs : List Char) :
    trimBoth (upTo sep (trimBoth cs)) = trimBoth (upTo sep cs) := by
  by_cases mem : sep ∈ cs
  · obtain ⟨a, b, rfl, first⟩ := List.eq_append_cons_of_mem mem
    have first' : sep ∉ trimLeft a := fun h => first ((List.dropWhile_sublist isBlank).subset h)
    rw [trimBoth_append_cons solid, upTo_append_cons, upTo_append_cons, upTo_of_notMem first,
      upTo_of_notMem first', trimBoth_trimLeft]
  · have none_ : sep ∉ trimBoth cs := fun h => mem ((trimBoth_sublist cs).subset h)
    rw [upTo_of_notMem mem, upTo_of_notMem none_, trimBoth_trimBoth]

/-! ## Letters of either case -/

/-- A capital becomes a small letter, and every other character stays. -/
theorem lower_cases (c : Char) :
    lower c = c ∨ (65 ≤ c.toNat ∧ c.toNat ≤ 90 ∧ (lower c).toNat = c.toNat + 32) := by
  by_cases h : 'A' ≤ c ∧ c ≤ 'Z'
  · have bounds : 65 ≤ c.toNat ∧ c.toNat ≤ 90 := h
    refine .inr ⟨bounds.1, bounds.2, ?_⟩
    rw [lower, if_pos h, Char.ofNat, dif_pos (.inl (by omega))]
    rfl
  · exact .inl (if_neg h)

@[simp] theorem lower_lower (c : Char) : lower (lower c) = lower c := by
  rcases lower_cases c with same | ⟨low, high, h⟩
  · rw [same, same]
  · rcases lower_cases (lower c) with same | ⟨low', high', -⟩
    · exact same
    · omega

/-- No letter is a blank. -/
theorem isBlank_lower (c : Char) : isBlank (lower c) = isBlank c := by
  rcases lower_cases c with h | ⟨low, high, h⟩
  · rw [h]
  · have solid : ∀ n, 65 ≤ n → n ≤ 122 →
        (blankRanges.any fun r => r.1 ≤ n && n ≤ r.2) = false := by
      intro n above below
      simp [blankRanges]
      omega
    rw [isBlank, isBlank, solid _ (by omega) (by omega), solid _ low (by omega)]

theorem map_lower_trimLeft (cs : List Char) :
    (trimLeft cs).map lower = trimLeft (cs.map lower) := by
  have same : isBlank ∘ lower = isBlank := funext isBlank_lower
  rw [trimLeft, trimLeft, List.dropWhile_map, same]

theorem map_lower_trimRight (cs : List Char) :
    (trimRight cs).map lower = trimRight (cs.map lower) := by
  have h := map_lower_trimLeft cs.reverse
  rw [List.map_reverse] at h
  rw [trimRight, trimRight, List.map_reverse]
  exact congrArg List.reverse h

theorem map_lower_trimBoth (cs : List Char) :
    (trimBoth cs).map lower = trimBoth (cs.map lower) := by
  rw [trimBoth, map_lower_trimRight, map_lower_trimLeft, trimBoth]

/-- A separator that is no letter stands at the same place in either case. -/
theorem map_lower_upTo {sep : Char} (apart : ∀ c, lower c = sep ↔ c = sep) (cs : List Char) :
    (upTo sep cs).map lower = upTo sep (cs.map lower) := by
  have same : (· != sep) ∘ lower = (· != sep) := by
    funext c
    rw [Function.comp_apply, Bool.eq_iff_iff, bne_iff_ne, bne_iff_ne]
    exact (apart c).not
  rw [upTo, upTo, List.takeWhile_map, same]

theorem lower_eq_colon_iff (c : Char) : lower c = ':' ↔ c = ':' := by
  rcases lower_cases c with h | ⟨low, high, h⟩
  · rw [h]
  · constructor
    · intro colon
      rw [colon] at h
      simp at h
      omega
    · rintro rfl
      simp at low high

end WebCall.Text
