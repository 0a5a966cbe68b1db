import Mathlib.Data.List.DropRight
import WebCall.Proofs.Url.Parser

/-!
# Texts that go on after a URL

What of the scheme and the authority of a URL is kept when more text follows. The scheme stands in
front of the first colon, and slashes at the end of a text show no more of its authority. Where a
slash follows, the authority ends there at the latest. The characters that are dropped behind a URL
then stand inside the text: a part of the authority they could be, but there they are refused.

## Main definitions

* `clean_append_cons`: what counts of a longer text.
* `scheme?_append_eq_some`: its scheme.
* `authority_unique`: its authority.
-/
namespace WebCall.Url

variable {scheme cs rest : List Char} {a : Authority}

/-! ## The characters that count -/

/-- The characters that count among those that are left in the middle of a text. -/
def counted (cs : List Char) : List Char := cs.filter fun c => !isIgnored c

theorem counted_append (cs ds : List Char) : counted (cs ++ ds) = counted cs ++ counted ds :=
  List.filter_append ..

theorem mem_of_mem_counted {c : Char} (h : c ∈ counted cs) : c ∈ cs := List.mem_of_mem_filter h

theorem clean_eq (cs : List Char) : clean cs = counted ((cs.dropWhile isOuter).rdropWhile isOuter) :=
  rfl

/-- What follows a text, from a character on that is no blank, keeps all of the text but its
start. -/
theorem clean_append_cons {c : Char} (solid : isOuter c = false) (cs rest : List Char) :
    clean (cs ++ c :: rest) =
      counted (cs.dropWhile isOuter) ++ counted (c :: rest.rdropWhile isOuter) := by
  have front : (cs ++ c :: rest).dropWhile isOuter = cs.dropWhile isOuter ++ c :: rest := by
    rw [Text.dropWhile_append_cons solid]
  have back : (cs.dropWhile isOuter ++ c :: rest).rdropWhile isOuter =
      cs.dropWhile isOuter ++ c :: rest.rdropWhile isOuter := by
    simp [List.rdropWhile, Text.dropWhile_append_cons solid]
  rw [clean_eq, front, back, counted_append]

/-! ## Scheme and authority -/

/-- A scheme is read from the text up to its colon, whatever stands at the end. -/
theorem scheme?_append_eq_some {slashes : List Char} (plain : ':' ∉ slashes)
    (h : scheme? (cs ++ slashes) = some (scheme, rest)) :
    ∃ shown, rest = shown ++ slashes ∧
      ∀ tail, scheme? (cs ++ tail) = some (scheme, shown ++ tail) := by
  by_cases colon : ':' ∈ cs
  · obtain ⟨name, shown, rfl, first⟩ := List.eq_append_cons_of_mem colon
    have cut (tail : List Char) :
        Text.splitFirst? ':' (name ++ ':' :: (shown ++ tail)) = some (name, shown ++ tail) :=
      Text.splitFirst?_eq_some_iff.2 ⟨rfl, first⟩
    simp only [List.append_assoc, List.cons_append, scheme?, cut] at h ⊢
    split at h
    · next valid =>
      cases h
      exact ⟨shown, rfl, fun tail => if_pos valid⟩
    · cases h
  · have none_ : ':' ∉ cs ++ slashes := by
      simpa using ⟨colon, plain⟩
    rw [scheme?, Text.splitFirst?_eq_none none_] at h
    cases h

/-- A text without an authority is none. -/
theorem authorityText_ne_nil (special : isSpecial scheme = true) {isLast : Bool} {left : List Char}
    (read : readAuthority scheme (authorityText rest) isLast = .ok (a, left)) :
    authorityText rest ≠ [] := by
  intro none_
  rw [none_, readAuthority_eq_ok_iff special] at read
  exact read.1 rfl

/-- Slashes after a text show no more of its authority. -/
theorem authorityText_append_slashes {slashes : List Char} (h : ∀ c ∈ slashes, c = '/')
    (rest : List Char) : authorityText (rest ++ slashes) = authorityText rest := by
  have dropped : slashes.dropWhile isSlash = [] :=
    List.dropWhile_eq_nil_iff.2 fun c hc => by rw [h c hc]; rfl
  have ended : slashes.takeWhile (fun c => !endsAuthority true c) = [] := by
    cases slashes with
    | nil => rfl
    | cons c slashes =>
      rw [h c List.mem_cons_self]
      rfl
  rw [authorityText, authorityText, List.dropWhile_append]
  split
  · next all =>
    rw [dropped, List.isEmpty_iff.1 all]
  · rw [List.takeWhile_append, ended, List.append_nil]
    split
    · next whole => exact (List.IsPrefix.eq_of_length (List.takeWhile_prefix _) whole).symm
    · rfl

/-- What follows an authority up to a slash belongs to it only if nothing ended the authority
before. -/
theorem authorityText_append_cons {outers : List Char} (some_ : authorityText rest ≠ [])
    (inside : ∀ c ∈ outers, endsAuthority true c = false) (after : List Char) :
    authorityText (rest ++ (outers ++ '/' :: after)) = authorityText rest ∨
      authorityText (rest ++ (outers ++ '/' :: after)) = authorityText rest ++ outers := by
  have front : rest.dropWhile isSlash ≠ [] := by
    intro none_
    rw [authorityText, none_] at some_
    exact some_ rfl
  have kept : (outers ++ '/' :: after).takeWhile (fun c => !endsAuthority true c) = outers := by
    rw [List.takeWhile_append_of_pos fun c hc => by simp [inside c hc]]
    simp [endsAuthority]
  rw [authorityText, authorityText, List.dropWhile_append,
    if_neg fun all => front (List.isEmpty_iff.1 all), List.takeWhile_append, kept]
  split
  · next whole =>
    rw [List.IsPrefix.eq_of_length (List.takeWhile_prefix _) whole]
    exact .inr rfl
  · exact .inl rfl

theorem endsAuthority_eq_false_of_le {c : Char} (outer : c.toNat ≤ 0x20) :
    endsAuthority true c = false := by
  refine endsAuthority_eq_false fun ends => ?_
  simp only [List.mem_cons, List.not_mem_nil, or_false] at ends
  rcases ends with rfl | rfl | rfl | rfl <;> exact absurd outer (by decide)

/-- The authority that a text shows is read whatever follows from a slash on. -/
theorem authority_unique {a' : Authority} {isLast isLast' : Bool} {left left' outers after : List Char}
    (special : isSpecial scheme = true) (outer : ∀ c ∈ outers, c.toNat ≤ 0x20)
    (read : readAuthority scheme (authorityText rest) isLast = .ok (a, left))
    (joined : readAuthority scheme (authorityText (rest ++ (outers ++ '/' :: after))) isLast' =
      .ok (a', left')) : a' = a := by
  have same (again : readAuthority scheme (authorityText rest) isLast' = .ok (a', left')) :
      a' = a := by
    have once : readAuthority scheme (authorityText rest) isLast = .ok (a', left') :=
      (readAuthority_eq_ok_iff special).2 ((readAuthority_eq_ok_iff special).1 again)
    rw [read] at once
    cases once
    rfl
  have inside : ∀ c ∈ outers, endsAuthority true c = false :=
    fun c hc => endsAuthority_eq_false_of_le (outer c hc)
  rcases authorityText_append_cons (authorityText_ne_nil special read) inside after with
    text | text
  · exact same (text ▸ joined)
  · cases outers with
    | nil =>
      rw [text, List.append_nil] at joined
      exact same joined
    | cons c outers =>
      -- what was dropped behind the base would be read as the end of the authority
      have unslashed : '\\' ∉ authorityText rest := by
        intro mem
        have plain := List.mem_takeWhile_imp mem
        cases plain
      obtain ⟨low, lows⟩ := List.forall_mem_cons.1 outer
      rw [text] at joined
      exact absurd joined (readAuthority_append_ne_ok special unslashed low lows)

end WebCall.Url
