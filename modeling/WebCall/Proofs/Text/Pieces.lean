import WebCall.Text.Ascii

/-!
# Pieces between separators

Pieces without separators are read back from the text that they make with separators between them. A
run of characters of one kind is read up to a character of another.
-/
namespace WebCall.Text

/-! ## Runs -/

section Runs

variable {p : Char → Bool} {ds rest : List Char}

/-- All that goes on is taken, up to a character that does not. -/
theorem takeWhile_append_of_stop (all : ∀ c ∈ ds, p c = true)
    (stop : ∀ c, rest.head? = some c → p c = false) : (ds ++ rest).takeWhile p = ds := by
  rw [List.takeWhile_append_of_pos all]
  cases rest with
  | nil => exact List.append_nil ds
  | cons c tail => simp [stop c rfl]

theorem dropWhile_append_of_stop (all : ∀ c ∈ ds, p c = true)
    (stop : ∀ c, rest.head? = some c → p c = false) : (ds ++ rest).dropWhile p = rest := by
  rw [List.dropWhile_append_of_pos all]
  cases rest with
  | nil => rfl
  | cons c tail => simp [stop c rfl]

/-- Nothing is taken from a character on that does not go on. -/
theorem takeWhile_append_cons {c : Char} (stop : p c = false) (front tail : List Char) :
    (front ++ c :: tail).takeWhile p = front.takeWhile p := by
  rw [List.takeWhile_append, List.takeWhile_cons_of_neg (by simp [stop]), List.append_nil]
  split
  · next whole => exact (List.IsPrefix.eq_of_length (List.takeWhile_prefix p) whole).symm
  · rfl

/-- Nothing is dropped from a character on that does not go on. -/
theorem dropWhile_append_cons {c : Char} (stop : p c = false)
    (front tail : List Char) :
    (front ++ c :: tail).dropWhile p = front.dropWhile p ++ c :: tail := by
  rw [List.dropWhile_append, List.dropWhile_cons_of_neg (by simp [stop])]
  split
  · next all => rw [List.isEmpty_iff.1 all, List.nil_append]
  · rfl

/-- Where a text stops going on like a lead, the lead ends too. -/
theorem prefix_append_iff {lead : List Char} (stop : ∀ c, rest.head? = some c → c ∉ lead) :
    lead <+: ds ++ rest ↔ lead <+: ds := by
  refine ⟨fun h => ?_, fun h => h.trans (List.prefix_append ds rest)⟩
  rcases List.prefix_or_prefix_of_prefix h (List.prefix_append ds rest) with within | ⟨more, rfl⟩
  · exact within
  · have next : more <+: rest := (List.prefix_append_right_inj ds).1 h
    cases more with
    | nil => simp
    | cons c more =>
      obtain ⟨tail, rfl⟩ := next
      exact absurd (by simp) (stop c rfl)

end Runs

/-! ## Pieces -/

variable {sep : Char}

/-- Without a separator there is no cut. -/
theorem splitFirst?_eq_none {cs : List Char} (h : sep ∉ cs) : splitFirst? sep cs = none := by
  rw [Option.eq_none_iff_forall_ne_some]
  rintro ⟨a, b⟩ cut
  obtain ⟨rfl, -⟩ := splitFirst?_eq_some_iff.1 cut
  simp at h

/-- A text without a separator is one piece. -/
theorem pieces_of_notMem {cs : List Char} (h : sep ∉ cs) : pieces sep cs = [cs] := by
  induction cs with
  | nil => rfl
  | cons c cs ih =>
    rw [List.mem_cons, not_or] at h
    rw [pieces, if_neg (Ne.symm h.1), ih h.2]

/-- The first separator ends the first piece. -/
theorem pieces_append_cons {cs : List Char} (h : sep ∉ cs) (rest : List Char) :
    pieces sep (cs ++ sep :: rest) = cs :: pieces sep rest := by
  induction cs with
  | nil => rw [List.nil_append, pieces, if_pos rfl]
  | cons c cs ih =>
    rw [List.mem_cons, not_or] at h
    rw [List.cons_append, pieces, if_neg (Ne.symm h.1), ih h.2]

/-- Pieces are read back. -/
theorem pieces_intercalate {parts : List (List Char)} (some_ : parts ≠ [])
    (free : ∀ part ∈ parts, sep ∉ part) : pieces sep ([sep].intercalate parts) = parts := by
  induction parts with
  | nil => exact absurd rfl some_
  | cons part parts ih =>
    have first : sep ∉ part := free part List.mem_cons_self
    cases parts with
    | nil =>
      rw [List.intercalate_singleton]
      exact pieces_of_notMem first
    | cons next parts =>
      have later := ih (List.cons_ne_nil next parts) fun p hp => free p (List.mem_cons_of_mem part hp)
      rw [List.intercalate_cons_cons, List.append_assoc, List.singleton_append,
        pieces_append_cons first, later]

/-- Every character of a text between separators is one of a piece, or a separator. -/
theorem mem_intercalate {parts : List (List Char)} {c : Char}
    (h : c ∈ [sep].intercalate parts) : c = sep ∨ ∃ part ∈ parts, c ∈ part := by
  induction parts with
  | nil => simp [List.intercalate] at h
  | cons part parts ih =>
    cases parts with
    | nil =>
      rw [List.intercalate_singleton] at h
      exact .inr ⟨part, List.mem_cons_self, h⟩
    | cons next parts =>
      rw [List.intercalate_cons_cons, List.append_assoc, List.mem_append, List.mem_append,
        List.mem_singleton] at h
      rcases h with here | rfl | later
      · exact .inr ⟨part, List.mem_cons_self, here⟩
      · exact .inl rfl
      · rcases ih later with same | ⟨p, hp, hc⟩
        · exact .inl same
        · exact .inr ⟨p, List.mem_cons_of_mem part hp, hc⟩

end WebCall.Text
