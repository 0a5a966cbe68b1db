import WebCall.Proofs.Text.Digits
import WebCall.Proofs.Text.Pieces
import WebCall.Url.Ipv6

/-!
# IPv6 addresses are read back

An address that is read has eight pieces of sixteen bits, and its text is read as the same eight
pieces: no piece is empty, so two colons stand next to each other at the gap alone, and the gap is
as long as the run of zeros that it stands for.

## Main definitions

* `IsIpv6`: eight pieces of sixteen bits.
* `isIpv6_of_ipv6?`: what is read.
* `ipv6?_ipv6Text`: an address is read back.
-/
namespace WebCall.Url

/-- Eight pieces of sixteen bits. -/
structure IsIpv6 (pieces : List Nat) : Prop where
  length : pieces.length = 8
  small : ∀ p ∈ pieces, p < 65536

/-! ## What is read -/

theorem lt_of_ipv6Piece? {cs : List Char} {p : Nat} (h : ipv6Piece? cs = some p) : p < 65536 := by
  rw [ipv6Piece?, Option.ite_none_left_eq_some] at h
  obtain ⟨shape, value⟩ := h
  simp only [Bool.or_eq_true, decide_eq_true_eq, not_or, Bool.not_eq_true',
    Nat.not_lt, Bool.not_eq_true, Bool.not_eq_false, List.all_eq_true] at shape
  obtain ⟨⟨-, short⟩, digits⟩ := shape
  cases value
  calc Text.ofDigits 16 cs < 16 ^ cs.length := Text.ofDigits_lt digits
    _ ≤ 16 ^ 4 := Nat.pow_le_pow_right (by omega) short

theorem lt_of_decimalByte? {cs : List Char} {b : Nat} (h : decimalByte? cs = some b) : b < 256 := by
  rw [decimalByte?, Option.ite_none_left_eq_some] at h
  obtain ⟨-, h⟩ := h
  rw [Option.ite_none_right_eq_some] at h
  obtain ⟨small, value⟩ := h
  cases value
  exact small

/-- Everything that is made member by member is made of a member. -/
theorem exists_of_mem_mapM {α β : Type} {f : α → Option β} {as : List α} {bs : List β}
    (h : as.mapM f = some bs) {b : β} (hb : b ∈ bs) : ∃ a ∈ as, f a = some b := by
  induction as generalizing bs with
  | nil =>
    cases h
    cases hb
  | cons a as ih =>
    rw [List.mapM_cons] at h
    obtain ⟨b', made, h⟩ := Option.bind_eq_some_iff.1 h
    obtain ⟨bs', later, h⟩ := Option.bind_eq_some_iff.1 h
    cases h
    rcases List.mem_cons.1 hb with rfl | hb
    · exact ⟨a, List.mem_cons_self, made⟩
    · obtain ⟨x, hx, eq⟩ := ih later hb
      exact ⟨x, List.mem_cons_of_mem a hx, eq⟩

theorem lt_of_embeddedIpv4? {cs : List Char} {ps : List Nat} (h : embeddedIpv4? cs = some ps) :
    ∀ p ∈ ps, p < 65536 := by
  rw [embeddedIpv4?] at h
  split at h
  · next a b c d bytes =>
    have small : ∀ x ∈ [a, b, c, d], x < 256 := by
      intro x hx
      obtain ⟨cs, -, byte⟩ := exists_of_mem_mapM bytes hx
      exact lt_of_decimalByte? byte
    simp only [List.forall_mem_cons] at small
    cases h
    simp only [List.forall_mem_cons]
    exact ⟨by omega, by omega, nofun⟩
  · cases h

theorem lt_of_ipv6Run? {parts : List (List Char)} {ps : List Nat} (h : ipv6Run? parts = some ps) :
    ∀ p ∈ ps, p < 65536 := by
  fun_induction ipv6Run? parts generalizing ps with
  | case1 =>
    cases h
    exact nofun
  | case2 last dotted => exact lt_of_embeddedIpv4? h
  | case3 last =>
    obtain ⟨p, piece, rfl⟩ := Option.map_eq_some_iff.1 h
    intro q hq
    obtain rfl := List.mem_singleton.1 hq
    exact lt_of_ipv6Piece? piece
  | case4 cs rest _ ih =>
    obtain ⟨p, piece, h⟩ := Option.bind_eq_some_iff.1 h
    obtain ⟨qs, later, rfl⟩ := Option.map_eq_some_iff.1 h
    intro q hq
    rcases List.mem_cons.1 hq with rfl | hq
    · exact lt_of_ipv6Piece? piece
    · exact ih later q hq

theorem lt_of_ipv6Side? {cs : List Char} {ps : List Nat} (h : ipv6Side? cs = some ps) :
    ∀ p ∈ ps, p < 65536 := by
  rw [ipv6Side?] at h
  split at h
  · cases h
    exact nofun
  · exact lt_of_ipv6Run? h

/-- An address that is read has eight pieces of sixteen bits. -/
theorem isIpv6_of_ipv6? {cs : List Char} {ps : List Nat} (h : ipv6? cs = some ps) : IsIpv6 ps := by
  rw [ipv6?] at h
  split at h
  · obtain ⟨run, length⟩ := Option.filter_eq_some_iff.1 h
    exact ⟨by simpa using length, lt_of_ipv6Run? run⟩
  · next left right _ =>
    rw [Option.ite_none_left_eq_some] at h
    obtain ⟨-, h⟩ := h
    obtain ⟨l, before, h⟩ := Option.bind_eq_some_iff.1 h
    obtain ⟨r, after, h⟩ := Option.bind_eq_some_iff.1 h
    rw [Option.ite_none_right_eq_some] at h
    obtain ⟨room, h⟩ := h
    cases h
    refine ⟨by simp; omega, fun p hp => ?_⟩
    simp only [List.append_assoc, List.mem_append, List.mem_replicate] at hp
    rcases hp with hp | ⟨-, rfl⟩ | hp
    · exact lt_of_ipv6Side? before p hp
    · omega
    · exact lt_of_ipv6Side? after p hp

/-! ## Texts of pieces -/

/-- The digits of pieces. -/
def piecesDigits (ps : List Nat) : List (List Char) := ps.map (Nat.toDigits 16)

theorem toList_piecesText (ps : List Nat) :
    (piecesText ps).toList = [':'].intercalate (piecesDigits ps) := by
  simp [piecesText, piecesDigits, Text.hexDigits, Function.comp_def]

/-- Neither a colon nor a dot is a digit. -/
theorem notMem_of_mem_piecesDigits {ps : List Nat} {part : List Char} (h : part ∈ piecesDigits ps)
    {c : Char} (solid : Text.isDigitOf 16 c = false) : c ∉ part := by
  intro hc
  obtain ⟨p, -, rfl⟩ := List.mem_map.1 h
  rw [Text.isDigitOf_of_mem_toDigits (by omega) (by omega) hc] at solid
  cases solid

theorem ne_nil_of_mem_piecesDigits {ps : List Nat} {part : List Char} (h : part ∈ piecesDigits ps) :
    part ≠ [] := by
  obtain ⟨p, -, rfl⟩ := List.mem_map.1 h
  exact Nat.toDigits_ne_nil

/-- A piece is read back from its digits. -/
theorem ipv6Piece?_toDigits {p : Nat} (h : p < 65536) :
    ipv6Piece? (Nat.toDigits 16 p) = some p := by
  have short : (Nat.toDigits 16 p).length ≤ 4 := (Nat.length_toDigits_le_iff (by omega) (by omega)).2 h
  have digits : (Nat.toDigits 16 p).all (Text.isDigitOf 16) = true :=
    List.all_eq_true.2 fun c hc => Text.isDigitOf_of_mem_toDigits (by omega) (by omega) hc
  simp [ipv6Piece?, digits, Text.ofDigits_toDigits, short]

theorem ipv6Run?_piecesDigits {ps : List Nat} (small : ∀ p ∈ ps, p < 65536) :
    ipv6Run? (piecesDigits ps) = some ps := by
  induction ps with
  | nil => rfl
  | cons p ps ih =>
    have first := ipv6Piece?_toDigits (small p List.mem_cons_self)
    have later := ih fun q hq => small q (List.mem_cons_of_mem p hq)
    cases ps with
    | nil =>
      have only : Nat.toDigits 16 p ∈ piecesDigits [p] := List.mem_cons_self
      have dotless : '.' ∉ Nat.toDigits 16 p := notMem_of_mem_piecesDigits only (by decide)
      simp [piecesDigits, ipv6Run?, first, dotless]
    | cons q ps =>
      rw [piecesDigits, List.map_cons] at later ⊢
      rw [List.map_cons, ipv6Run?, first, later]
      · rfl
      · exact nofun

/-- The text of pieces has no dot. -/
theorem dot_notMem_piecesText (ps : List Nat) : '.' ∉ (piecesText ps).toList := by
  intro dot
  rw [toList_piecesText] at dot
  rcases Text.mem_intercalate dot with colon | ⟨part, hp, hc⟩
  · cases colon
  · exact notMem_of_mem_piecesDigits hp (by decide) hc

/-- Pieces are read back from their text. -/
theorem ipv6Run?_piecesText {ps : List Nat} (small : ∀ p ∈ ps, p < 65536) (some_ : ps ≠ []) :
    ipv6Run? (Text.pieces ':' (piecesText ps).toList) = some ps := by
  have parts : piecesDigits ps ≠ [] := by simpa [piecesDigits] using some_
  rw [toList_piecesText,
    Text.pieces_intercalate parts fun part hp => notMem_of_mem_piecesDigits hp (by decide)]
  exact ipv6Run?_piecesDigits small

theorem ipv6Side?_piecesText {ps : List Nat} (small : ∀ p ∈ ps, p < 65536) :
    ipv6Side? (piecesText ps).toList = some ps := by
  by_cases none_ : ps = []
  · subst none_
    rfl
  · have written : (piecesText ps).toList.isEmpty = false := by
      cases text : (piecesText ps).toList with
      | nil =>
        have run := ipv6Run?_piecesText small none_
        rw [text] at run
        cases run
      | cons => rfl
    rw [ipv6Side?, written]
    exact ipv6Run?_piecesText small none_

/-! ## Gaps -/

theorem cutAtGap?_cons {c : Char} {cs : List Char} (h : c = ':' → cs.head? ≠ some ':') :
    cutAtGap? (c :: cs) = (cutAtGap? cs).map fun r => (c :: r.1, r.2) := by
  rw [cutAtGap?]
  rintro rest rfl rfl
  exact h rfl rfl

theorem cutAtGap?_append_of_notMem {part : List Char} (solid : ':' ∉ part) (tail : List Char) :
    cutAtGap? (part ++ tail) = (cutAtGap? tail).map fun r => (part ++ r.1, r.2) := by
  induction part with
  | nil => simp
  | cons c part ih =>
    rw [List.mem_cons, not_or] at solid
    rw [List.cons_append, cutAtGap?_cons fun same => absurd same.symm solid.1, ih solid.2,
      Option.map_map]
    rfl

/-- No two colons stand next to each other between parts that are not empty. -/
theorem cutAtGap?_intercalate_append {parts : List (List Char)} (solid : ∀ part ∈ parts, ':' ∉ part)
    (some_ : ∀ part ∈ parts, part ≠ []) (tail : List Char) :
    cutAtGap? ([':'].intercalate parts ++ tail) =
      (cutAtGap? tail).map fun r => ([':'].intercalate parts ++ r.1, r.2) := by
  induction parts with
  | nil => simp
  | cons part parts ih =>
    have first := cutAtGap?_append_of_notMem (solid part List.mem_cons_self)
    cases parts with
    | nil =>
      rw [List.intercalate_singleton]
      exact first tail
    | cons next parts =>
      have later := ih (fun p hp => solid p (List.mem_cons_of_mem part hp))
        fun p hp => some_ p (List.mem_cons_of_mem part hp)
      have apart : ([':'].intercalate (next :: parts) ++ tail).head? ≠ some ':' := by
        have mem : next ∈ part :: next :: parts := by simp
        obtain ⟨c, cs, rfl⟩ := List.exists_cons_of_ne_nil (some_ next mem)
        have other : c ≠ ':' := fun same => solid _ mem (by simp [same])
        cases parts <;> simpa [List.intercalate_cons_cons] using other
      rw [List.intercalate_cons_cons, List.append_assoc, List.append_assoc, first,
        List.singleton_append, cutAtGap?_cons fun _ => apart, later, Option.map_map, Option.map_map]
      simp [Function.comp_def]

/-- What the run of zeros at the front is. -/
theorem eq_replicate_zeroRun_append (ps : List Nat) :
    ps = List.replicate (zeroRun ps) 0 ++ ps.drop (zeroRun ps) := by
  induction ps with
  | nil => rfl
  | cons p ps ih =>
    by_cases zero : p = 0
    · have longer : zeroRun (p :: ps) = zeroRun ps + 1 := by simp [zeroRun, zero]
      rw [longer, List.replicate_succ, List.cons_append, List.drop_succ_cons, ← ih, zero]
    · have none_ : zeroRun (p :: ps) = 0 := by simp [zeroRun, zero]
      rw [none_]
      rfl

/-- The gap is one of the runs, or there is none. -/
theorem foldl_longer_mem (runs : List (Nat × Nat)) (best : Nat × Nat) :
    runs.foldl (fun b r => if b.2 < r.2 then r else b) best ∈ best :: runs := by
  induction runs generalizing best with
  | nil => exact List.mem_cons_self
  | cons r runs ih =>
    rw [List.foldl_cons]
    by_cases longer : best.2 < r.2
    · rw [if_pos longer]
      exact List.mem_cons_of_mem _ (ih r)
    · rw [if_neg longer]
      rcases List.mem_cons.1 (ih best) with same | later
      · rw [same]
        exact List.mem_cons_self
      · exact List.mem_cons_of_mem _ (List.mem_cons_of_mem _ later)

/-- A gap stands for a run of at least two zeros. -/
theorem longestGap?_eq_some {ps : List Nat} {start length : Nat}
    (h : longestGap? ps = some (start, length)) :
    2 ≤ length ∧ ps = ps.take start ++ List.replicate length 0 ++ ps.drop (start + length) := by
  rw [longestGap?, Option.ite_none_right_eq_some] at h
  obtain ⟨long, best⟩ := h
  rw [Option.some.injEq] at best
  rw [best] at long
  have chosen := foldl_longer_mem ((List.range ps.length).map fun i => (i, zeroRun (ps.drop i))) (0, 0)
  rw [best] at chosen
  rcases List.mem_cons.1 chosen with none_ | run
  · cases none_
    omega
  · obtain ⟨i, -, eq⟩ := List.mem_map.1 run
    cases eq
    refine ⟨long, ?_⟩
    rw [List.append_assoc, ← List.drop_drop, ← eq_replicate_zeroRun_append, List.take_append_drop]

/-- The text of an address with a gap. -/
theorem toList_ipv6Text (ps : List Nat) : (ipv6Text ps).toList =
    match longestGap? ps with
    | none => (piecesText ps).toList
    | some (start, length) => (piecesText (ps.take start)).toList ++ ':' :: ':' ::
        (piecesText (ps.drop (start + length))).toList := by
  cases gap : longestGap? ps <;> simp [ipv6Text, gap]

theorem cutAtGap?_piecesText_append (ps : List Nat) (tail : List Char) :
    cutAtGap? ((piecesText ps).toList ++ tail) =
      (cutAtGap? tail).map fun r => ((piecesText ps).toList ++ r.1, r.2) := by
  rw [toList_piecesText]
  exact cutAtGap?_intercalate_append (fun part hp => notMem_of_mem_piecesDigits hp (by decide))
    (fun part hp => ne_nil_of_mem_piecesDigits hp) tail

/-- An address is read back. -/
theorem ipv6?_ipv6Text {ps : List Nat} (h : IsIpv6 ps) : ipv6? (ipv6Text ps).toList = some ps := by
  rw [toList_ipv6Text]
  cases gap : longestGap? ps with
  | none =>
    have whole := cutAtGap?_piecesText_append ps []
    rw [List.append_nil] at whole
    have some_ : ps ≠ [] := by
      rintro rfl
      cases h.length
    rw [ipv6?, whole]
    simp [cutAtGap?, ipv6Run?_piecesText h.small some_, h.length]
  | some run =>
    obtain ⟨start, length⟩ := run
    obtain ⟨long, parts⟩ := longestGap?_eq_some gap
    have front : ∀ p ∈ ps.take start, p < 65536 := fun p hp => h.small p (List.mem_of_mem_take hp)
    have back : ∀ p ∈ ps.drop (start + length), p < 65536 :=
      fun p hp => h.small p (List.mem_of_mem_drop hp)
    have cut := cutAtGap?_piecesText_append (ps.take start)
      (':' :: ':' :: (piecesText (ps.drop (start + length))).toList)
    have count := congrArg List.length parts
    rw [List.length_append, List.length_append, List.length_replicate, h.length] at count
    rw [ipv6?, cut]
    have room : (ps.take start).length + (ps.drop (start + length)).length ≤ 7 := by omega
    have zeros : 8 - (ps.take start).length - (ps.drop (start + length)).length = length := by omega
    simp only [cutAtGap?, Option.map_some, List.append_nil, List.contains_iff_mem,
      dot_notMem_piecesText, if_false, ipv6Side?_piecesText front, ipv6Side?_piecesText back,
      Option.bind_some, room, if_true, zeros]
    rw [← parts]

/-- The characters of the text of an address. -/
theorem of_mem_ipv6Text {ps : List Nat} {c : Char} (h : c ∈ (ipv6Text ps).toList) :
    c = ':' ∨ Text.isDigitOf 16 c = true := by
  have side (qs : List Nat) (hc : c ∈ (piecesText qs).toList) :
      c = ':' ∨ Text.isDigitOf 16 c = true := by
    rw [toList_piecesText] at hc
    rcases Text.mem_intercalate hc with colon | ⟨part, hp, hc⟩
    · exact .inl colon
    · by_contra other
      rw [not_or, Bool.not_eq_true] at other
      exact notMem_of_mem_piecesDigits hp other.2 hc
  rw [toList_ipv6Text] at h
  split at h
  · exact side _ h
  · simp only [List.mem_append, List.mem_cons] at h
    rcases h with h | rfl | rfl | h
    · exact side _ h
    · exact .inl rfl
    · exact .inl rfl
    · exact side _ h

end WebCall.Url
