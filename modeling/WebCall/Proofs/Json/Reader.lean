import WebCall.Proofs.Json.Numbers
import WebCall.Proofs.Json.Strings

/-!
# Reading JSON and its grammar

The reader finds a value in a text exactly where the grammar has the text for one of the value's.
Both directions go by induction on the reader's steps. That texts are read back needs enough steps:
as many as a value has characters, and one more for items and members, whose readers take a step of
their own before they come to the first value.

## Main definitions

* `Reads`, `Accepts`: what holds of the readers with so many steps.
* `parse?_eq_some_iff`: the texts in which a value is found.
-/
namespace WebCall.Json

open Text (isDigit dropWhile_append_of_stop)

variable {steps depth : Nat} {cs rest : List Char}

/-! ## Blanks -/

theorem isSpace_iff {c : Char} : isSpace c = true ↔ c ∈ [' ', '\n', '\t', '\r'] := by
  simp [isSpace, or_assoc]

/-- Blanks in front are dropped, up to a character that is none. -/
theorem skip_append {bs : List Char} (blanks : Blanks bs)
    (stop : ∀ c, cs.head? = some c → isSpace c = false) : skip (bs ++ cs) = cs :=
  dropWhile_append_of_stop (fun c hc => isSpace_iff.2 (blanks c hc)) stop

theorem skip_append_cons {bs : List Char} {c : Char} (blanks : Blanks bs)
    (stop : isSpace c = false) : skip (bs ++ c :: cs) = c :: cs :=
  skip_append blanks fun _ hd => Option.some.inj hd ▸ stop

/-- What is dropped are blanks. -/
theorem exists_blanks (cs : List Char) : ∃ bs, Blanks bs ∧ cs = bs ++ skip cs :=
  ⟨cs.takeWhile isSpace, fun _ hc => isSpace_iff.1 (List.mem_takeWhile_imp hc),
    List.takeWhile_append_dropWhile.symm⟩

theorem exists_blanks_of_skip {c : Char} (h : skip cs = c :: rest) :
    ∃ bs, Blanks bs ∧ cs = bs ++ c :: rest :=
  h ▸ exists_blanks cs

theorem Ends.cons {c : Char} (digit : isDigit c = false) (others : c ∉ ['.', 'e', 'E']) :
    Ends (c :: rest) := by
  intro d hd
  obtain rfl := Option.some.inj hd
  exact ⟨digit, others⟩

/-- No blank goes on with a number. -/
theorem Ends.blanks {bs : List Char} (blanks : Blanks bs) (ends : Ends rest) :
    Ends (bs ++ rest) := by
  cases bs with
  | nil => exact ends
  | cons b bs =>
    have blank := blanks b List.mem_cons_self
    simp only [List.mem_cons, List.not_mem_nil, or_false] at blank
    rcases blank with rfl | rfl | rfl | rfl <;> exact .cons (by decide) (by decide)

/-! ## First characters -/

/-- No value begins with a blank or with the bracket that ends an array. -/
theorem ValueText.head {t : Json} (h : ValueText depth t cs) :
    ∃ c tail, cs = c :: tail ∧ isSpace c = false ∧ c ≠ ']' := by
  cases h with
  | number text =>
    obtain ⟨c, tail, rfl, first⟩ := text.head
    refine ⟨c, tail, rfl, ?_⟩
    rcases first with digit | rfl
    · exact Text.of_isDigit digit (by decide)
    · decide
  | null | boolTrue | boolFalse | string | emptyArray | array | emptyObject | object =>
    exact ⟨_, _, rfl, by decide, by decide⟩

theorem ValueText.length_pos {t : Json} (h : ValueText depth t cs) : 0 < cs.length := by
  obtain ⟨c, tail, rfl, -⟩ := h.head
  exact Nat.succ_pos _

theorem ItemsText.head {items : List Json} (h : ItemsText depth items cs) :
    ∃ c tail, cs = c :: tail ∧ isSpace c = false ∧ c ≠ ']' := by
  cases h with
  | last text | more text =>
    obtain ⟨c, tail, rfl, first⟩ := text.head
    exact ⟨c, _, rfl, first⟩

theorem MembersText.head {members : List (String × Json)} (h : MembersText depth members cs) :
    ∃ tail, cs = '"' :: tail := by
  cases h with
  | last text | more text =>
    cases text
    exact ⟨_, rfl⟩

/-! ## Single steps of the readers -/

theorem value?_string : value? (steps + 1) depth ('"' :: cs) =
    (stringTail? cs).map fun r => (.string (.ofList r.1), r.2) := rfl

theorem value?_number {c : Char} (h : isDigit c = true ∨ c = '-') :
    value? (steps + 1) depth (c :: cs) = (number? (c :: cs)).map fun r => (.number r.1, r.2) := by
  have others : c ∉ ['n', 't', 'f', '"', '[', '\x7b'] := by
    rcases h with digit | rfl
    · exact Text.of_isDigit digit (by decide)
    · decide
  unfold value?
  split
  iterate 6
    · next eq =>
      cases eq
      exact absurd (by decide) others
  · rfl

theorem value?_emptyArray (h : skip cs = ']' :: rest) :
    value? (steps + 1) (depth + 1) ('[' :: cs) = some (.array [], rest) := by
  simp only [value?, h]

theorem value?_array {c : Char} {tail : List Char} (h : skip cs = c :: tail) (other : c ≠ ']') :
    value? (steps + 1) (depth + 1) ('[' :: cs) =
      (items? steps depth (c :: tail)).map fun r => (.array r.1, r.2) := by
  simp only [value?, h]
  split
  · next eq =>
    cases eq
    exact absurd rfl other
  · rfl

theorem value?_emptyObject (h : skip cs = '\x7d' :: rest) :
    value? (steps + 1) (depth + 1) ('\x7b' :: cs) = some (.object [], rest) := by
  simp only [value?, h]

theorem value?_object {tail : List Char} (h : skip cs = '"' :: tail) :
    value? (steps + 1) (depth + 1) ('\x7b' :: cs) =
      (membersTail? steps depth ('"' :: tail)).map fun r => (.object r.1, r.2) := by
  simp only [value?, h]
  rfl

theorem items?_last {item : Json} {tail : List Char}
    (text : value? steps depth cs = some (item, tail)) (h : skip tail = ']' :: rest) :
    items? (steps + 1) depth cs = some ([item], rest) := by
  simp only [items?, text, Option.bind_some, h]

theorem items?_more {item : Json} {tail : List Char}
    (text : value? steps depth cs = some (item, tail)) (h : skip tail = ',' :: rest) :
    items? (steps + 1) depth cs =
      (items? steps depth (skip rest)).map fun r => (item :: r.1, r.2) := by
  simp only [items?, text, Option.bind_some, h]

theorem membersTail?_last {key : List Char} {value : Json} {tail colon last : List Char}
    (name : stringTail? cs = some (key, tail)) (h : skip tail = ':' :: colon)
    (text : value? steps depth (skip colon) = some (value, last))
    (h' : skip last = '\x7d' :: rest) :
    membersTail? (steps + 1) depth ('"' :: cs) = some ([(.ofList key, value)], rest) := by
  simp only [membersTail?, name, Option.bind_some, h, text, h']

theorem membersTail?_more {key : List Char} {value : Json} {tail colon last : List Char}
    (name : stringTail? cs = some (key, tail)) (h : skip tail = ':' :: colon)
    (text : value? steps depth (skip colon) = some (value, last)) (h' : skip last = ',' :: rest) :
    membersTail? (steps + 1) depth ('"' :: cs) =
      (membersTail? steps depth (skip rest)).map fun r => ((.ofList key, value) :: r.1, r.2) := by
  simp only [membersTail?, name, Option.bind_some, h, text, h']

/-! ## Texts are read back -/

/-- With so many steps, every text of a value is read back, whatever follows it, and so are the
items of an array and the members of an object. -/
structure Reads (steps : Nat) : Prop where
  value : ∀ {depth t cs rest}, ValueText depth t cs → cs.length ≤ steps → Ends rest →
    value? steps depth (cs ++ rest) = some (t, rest)
  items : ∀ {depth items cs rest}, ItemsText depth items cs → cs.length + 1 ≤ steps →
    items? steps depth (cs ++ ']' :: rest) = some (items, rest)
  members : ∀ {depth members cs rest}, MembersText depth members cs → cs.length + 1 ≤ steps →
    membersTail? steps depth (cs ++ '\x7d' :: rest) = some (members, rest)

theorem reads_zero : Reads 0 where
  value text short := by
    have := text.length_pos
    omega
  items _ short := by omega
  members _ short := by omega

theorem Reads.value_succ (h : Reads steps) {t : Json} (text : ValueText depth t cs)
    (short : cs.length ≤ steps + 1) (ends : Ends rest) :
    value? (steps + 1) depth (cs ++ rest) = some (t, rest) := by
  cases text with
  | null | boolTrue | boolFalse => rfl
  | string text =>
    rw [List.cons_append, List.append_assoc, List.singleton_append, value?_string,
      stringTail?_eq_some_iff.2 ⟨_, text, rfl⟩]
    rfl
  | number text =>
    obtain ⟨c, tail, rfl, first⟩ := text.head
    rw [List.cons_append, value?_number first, ← List.cons_append, number?_append text ends]
    rfl
  | emptyArray inside =>
    rw [List.cons_append, List.append_assoc]
    exact value?_emptyArray (skip_append_cons inside (by decide))
  | @array depth items blanks ds inside text =>
    obtain ⟨c, tail, rfl, plain, other⟩ := text.head
    have open_ : skip (blanks ++ (c :: tail ++ ']' :: rest)) = c :: (tail ++ ']' :: rest) :=
      skip_append_cons inside plain
    have read : items? steps depth (c :: tail ++ ']' :: rest) = some (items, rest) :=
      h.items text (by simp at short ⊢; omega)
    simp only [List.cons_append, List.append_assoc, List.nil_append] at read open_ ⊢
    rw [value?_array open_ other, read]
    rfl
  | emptyObject inside =>
    rw [List.cons_append, List.append_assoc]
    exact value?_emptyObject (skip_append_cons inside (by decide))
  | @object depth members blanks ds inside text =>
    obtain ⟨tail, rfl⟩ := text.head
    have open_ : skip (blanks ++ ('"' :: tail ++ '\x7d' :: rest)) =
        '"' :: (tail ++ '\x7d' :: rest) :=
      skip_append_cons inside (by decide)
    have read : membersTail? steps depth ('"' :: tail ++ '\x7d' :: rest) = some (members, rest) :=
      h.members text (by simp at short ⊢; omega)
    simp only [List.cons_append, List.append_assoc, List.nil_append] at read open_ ⊢
    rw [value?_object open_, read]
    rfl

theorem Reads.items_succ (h : Reads steps) {items : List Json} (text : ItemsText depth items cs)
    (short : cs.length ≤ steps) :
    items? (steps + 1) depth (cs ++ ']' :: rest) = some (items, rest) := by
  cases text with
  | @last _ item ds after text blanks =>
    have ends : Ends (after ++ ']' :: rest) := .blanks blanks (.cons (by decide) (by decide))
    have read := h.value text (by simp at short; omega) ends
    rw [List.append_assoc]
    exact items?_last read (skip_append_cons blanks (by decide))
  | @more _ item items ds after before es text blanks blanks' others =>
    have ends : Ends (after ++ ',' :: (before ++ (es ++ ']' :: rest))) :=
      .blanks blanks (.cons (by decide) (by decide))
    have read := h.value text (by simp at short; omega) ends
    have next : skip (before ++ (es ++ ']' :: rest)) = es ++ ']' :: rest := by
      obtain ⟨c, tail, rfl, plain, -⟩ := others.head
      exact skip_append_cons blanks' plain
    have read' : items? steps depth (es ++ ']' :: rest) = some (items, rest) :=
      h.items others (by simp at short; omega)
    simp only [List.append_assoc, List.cons_append]
    rw [items?_more read (skip_append_cons blanks (by decide)), next, read']
    rfl

/-- A key, a colon and a value are read, up to what follows the member. -/
theorem Reads.member (h : Reads steps) {m : String × Json} (text : MemberText depth m cs)
    (short : cs.length ≤ steps) (ends : Ends rest) :
    ∃ key value tail before after, m = (.ofList key, value) ∧ cs ++ rest = '"' :: tail ∧
      stringTail? tail = some (key, before) ∧ skip before = ':' :: after ∧
      value? steps depth (skip after) = some (value, rest) := by
  obtain @⟨_, key, ks, value, before, after, vs, name, blanks, blanks', text⟩ := text
  refine ⟨key, value, ks ++ '"' :: (before ++ ':' :: (after ++ (vs ++ rest))),
    before ++ ':' :: (after ++ (vs ++ rest)), after ++ (vs ++ rest), rfl, by simp,
    stringTail?_eq_some_iff.2 ⟨ks, name, rfl⟩, skip_append_cons blanks (by decide), ?_⟩
  have next : skip (after ++ (vs ++ rest)) = vs ++ rest := by
    obtain ⟨c, tail, rfl, plain, -⟩ := text.head
    exact skip_append_cons blanks' plain
  rw [next]
  exact h.value text (by simp at short; omega) ends

theorem Reads.members_succ (h : Reads steps) {members : List (String × Json)}
    (text : MembersText depth members cs) (short : cs.length ≤ steps) :
    membersTail? (steps + 1) depth (cs ++ '\x7d' :: rest) = some (members, rest) := by
  cases text with
  | @last _ m ds after text blanks =>
    have ends : Ends (after ++ '\x7d' :: rest) := .blanks blanks (.cons (by decide) (by decide))
    obtain ⟨key, value, tail, _, _, rfl, whole, name, colon, read⟩ :=
      h.member text (by simp at short; omega) ends
    rw [List.append_assoc, whole]
    exact membersTail?_last name colon read (skip_append_cons blanks (by decide))
  | @more _ m members ds after before es text blanks blanks' others =>
    have ends : Ends (after ++ ',' :: (before ++ (es ++ '\x7d' :: rest))) :=
      .blanks blanks (.cons (by decide) (by decide))
    obtain ⟨key, value, tail, _, _, rfl, whole, name, colon, read⟩ :=
      h.member text (by simp at short; omega) ends
    have next : skip (before ++ (es ++ '\x7d' :: rest)) = es ++ '\x7d' :: rest := by
      obtain ⟨tail, rfl⟩ := others.head
      exact skip_append_cons blanks' (by decide)
    have read' : membersTail? steps depth (es ++ '\x7d' :: rest) = some (members, rest) :=
      h.members others (by simp at short; omega)
    simp only [List.append_assoc, List.cons_append] at whole ⊢
    rw [whole, membersTail?_more name colon read (skip_append_cons blanks (by decide)), next,
      read']
    rfl

theorem reads (steps : Nat) : Reads steps := by
  induction steps with
  | zero => exact reads_zero
  | succ steps ih =>
    exact ⟨ih.value_succ, fun text short => ih.items_succ text (Nat.le_of_succ_le_succ short),
      fun text short => ih.members_succ text (Nat.le_of_succ_le_succ short)⟩

/-! ## Only texts are read -/

/-- With so many steps, what is read as a value is a text of it, and so are items and members up to
what ends them. -/
structure Accepts (steps : Nat) : Prop where
  value : ∀ {depth t cs rest}, value? steps depth cs = some (t, rest) →
    ∃ ds, ValueText depth t ds ∧ cs = ds ++ rest
  items : ∀ {depth items cs rest}, items? steps depth cs = some (items, rest) →
    ∃ ds, ItemsText depth items ds ∧ cs = ds ++ ']' :: rest
  members : ∀ {depth members cs rest}, membersTail? steps depth cs = some (members, rest) →
    ∃ ds, MembersText depth members ds ∧ cs = ds ++ '\x7d' :: rest

theorem accepts_zero : Accepts 0 where
  value h := by cases h
  items h := by cases h
  members h := by cases h

theorem Accepts.value_succ (h : Accepts steps) {t : Json}
    (read : value? (steps + 1) depth cs = some (t, rest)) :
    ∃ ds, ValueText depth t ds ∧ cs = ds ++ rest := by
  unfold value? at read
  split at read
  · cases read
    exact ⟨_, .null, rfl⟩
  · cases read
    exact ⟨_, .boolTrue, rfl⟩
  · cases read
    exact ⟨_, .boolFalse, rfl⟩
  · obtain ⟨⟨s, last⟩, string, eq⟩ := Option.map_eq_some_iff.1 read
    cases eq
    obtain ⟨ds, text, rfl⟩ := stringTail?_eq_some_iff.1 string
    exact ⟨_, .string text, by simp⟩
  · next tail =>
    cases depth with
    | zero => cases read
    | succ depth =>
      dsimp only at read
      split at read
      · next open_ =>
        cases read
        obtain ⟨bs, blanks, rfl⟩ := exists_blanks_of_skip open_
        exact ⟨_, .emptyArray blanks, by simp⟩
      · obtain ⟨⟨items, last⟩, inner, eq⟩ := Option.map_eq_some_iff.1 read
        cases eq
        obtain ⟨ds, text, inside⟩ := h.items inner
        obtain ⟨bs, blanks, whole⟩ := exists_blanks tail
        exact ⟨_, .array blanks text, by rw [whole, inside]; simp⟩
  · next tail =>
    cases depth with
    | zero => cases read
    | succ depth =>
      dsimp only at read
      split at read
      · next open_ =>
        cases read
        obtain ⟨bs, blanks, rfl⟩ := exists_blanks_of_skip open_
        exact ⟨_, .emptyObject blanks, by simp⟩
      · obtain ⟨⟨members, last⟩, inner, eq⟩ := Option.map_eq_some_iff.1 read
        cases eq
        obtain ⟨ds, text, inside⟩ := h.members inner
        obtain ⟨bs, blanks, whole⟩ := exists_blanks tail
        exact ⟨_, .object blanks text, by rw [whole, inside]; simp⟩
  · obtain ⟨⟨n, last⟩, number, eq⟩ := Option.map_eq_some_iff.1 read
    cases eq
    obtain ⟨ds, text, rfl⟩ := numberText_of_number? number
    exact ⟨ds, .number text, rfl⟩

theorem Accepts.items_succ (h : Accepts steps) {items : List Json}
    (read : items? (steps + 1) depth cs = some (items, rest)) :
    ∃ ds, ItemsText depth items ds ∧ cs = ds ++ ']' :: rest := by
  obtain ⟨⟨item, tail⟩, value, later⟩ := Option.bind_eq_some_iff.1 read
  obtain ⟨ds, text, rfl⟩ := h.value value
  dsimp only at later
  split at later
  · next close =>
    cases later
    obtain ⟨bs, blanks, rfl⟩ := exists_blanks_of_skip close
    exact ⟨_, .last text blanks, by simp⟩
  · next after comma =>
    obtain ⟨⟨others, last⟩, inner, eq⟩ := Option.map_eq_some_iff.1 later
    cases eq
    obtain ⟨es, text', inside⟩ := h.items inner
    obtain ⟨bs, blanks, rfl⟩ := exists_blanks_of_skip comma
    obtain ⟨bs', blanks', whole⟩ := exists_blanks after
    exact ⟨_, .more text blanks blanks' text', by rw [whole, inside]; simp⟩
  · cases later

theorem Accepts.members_succ (h : Accepts steps) {members : List (String × Json)}
    (read : membersTail? (steps + 1) depth cs = some (members, rest)) :
    ∃ ds, MembersText depth members ds ∧ cs = ds ++ '\x7d' :: rest := by
  unfold membersTail? at read
  split at read
  · obtain ⟨⟨key, tail⟩, name, named⟩ := Option.bind_eq_some_iff.1 read
    obtain ⟨ks, spelled, rfl⟩ := stringTail?_eq_some_iff.1 name
    dsimp only at named
    split at named
    · next before colon =>
      obtain ⟨⟨value, tail'⟩, found, later⟩ := Option.bind_eq_some_iff.1 named
      obtain ⟨vs, text, inside⟩ := h.value found
      obtain ⟨bs, blanks, rfl⟩ := exists_blanks_of_skip colon
      obtain ⟨bs', blanks', whole⟩ := exists_blanks before
      have member := MemberText.mk spelled blanks blanks' text
      dsimp only at later
      split at later
      · next close =>
        cases later
        obtain ⟨cs, after, rfl⟩ := exists_blanks_of_skip close
        exact ⟨_, .last member after, by rw [whole, inside]; simp⟩
      · next next_ comma =>
        obtain ⟨⟨others, last⟩, inner, eq⟩ := Option.map_eq_some_iff.1 later
        cases eq
        obtain ⟨es, text', inside'⟩ := h.members inner
        obtain ⟨cs, after, rfl⟩ := exists_blanks_of_skip comma
        obtain ⟨cs', after', whole'⟩ := exists_blanks next_
        exact ⟨_, .more member after after' text', by rw [whole, inside, whole', inside']; simp⟩
      · cases later
    · cases named
  · cases read

theorem accepts (steps : Nat) : Accepts steps := by
  induction steps with
  | zero => exact accepts_zero
  | succ steps ih => exact ⟨ih.value_succ, ih.items_succ, ih.members_succ⟩

/-! ## Whole texts -/

/-- A value is found exactly in its texts. -/
theorem parse?_eq_some_iff {t : Json} {text : String} : parse? text = some t ↔ IsText t text := by
  constructor
  · intro h
    unfold parse? at h
    dsimp only at h
    split at h
    · next value last read =>
      rw [Option.ite_none_right_eq_some, Option.some.injEq, List.isEmpty_iff] at h
      obtain ⟨done, rfl⟩ := h
      obtain ⟨before, blanks, whole⟩ := exists_blanks text.toList
      obtain ⟨after, blanks', end_⟩ := exists_blanks last
      obtain ⟨cs, spelled, inside⟩ := (accepts _).value read
      rw [done, List.append_nil] at end_
      exact ⟨before, cs, last, blanks, spelled, end_ ▸ blanks', by rw [← inside, ← whole]⟩
    · cases h
  · rintro ⟨before, cs, after, blanks, spelled, blanks', whole⟩
    have start : skip text.toList = cs ++ after := by
      obtain ⟨c, tail, rfl, plain, -⟩ := spelled.head
      rw [whole]
      exact skip_append_cons blanks plain
    have ends : Ends (after ++ []) := .blanks blanks' (by simp [Ends])
    rw [List.append_nil] at ends
    have read := (reads (2 * (cs ++ after).length + 1)).value spelled (by simp; omega) ends
    have close : skip (after ++ []) = [] := skip_append blanks' (by simp)
    rw [List.append_nil] at close
    simp only [parse?, maxDepth, start, read, close, List.isEmpty_nil, if_true]

/-- A text in which no value is found is no text of a value. -/
theorem parse?_eq_none_iff {text : String} : parse? text = none ↔ ∀ t, ¬ IsText t text := by
  simp only [← parse?_eq_some_iff, Option.eq_none_iff_forall_ne_some]

end WebCall.Json
