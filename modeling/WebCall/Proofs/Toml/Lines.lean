import WebCall.Proofs.Toml.Values

/-!
# Reading the lines of a TOML document

The reader of documents takes the texts of lines one by one, and each adds what it says. What a line
says does not depend on its blanks, its comment and its end.

## Main definitions

* `Document.add?`: what a line adds to a document.
* `Document.lines?_eq`: the lines of a text are added in their order.
* `Document.parse?_eq`: the table of a text.
-/
namespace WebCall.Toml

open Text (dropWhile_append_of_stop)

variable {d : Document} {rest : List Char}

/-! ## Ends of lines -/

/-- How a line stops: with a line end, or with the text. -/
def Stops (stop rest : List Char) : Prop :=
  stop ∈ [['\n'], ['\r', '\n']] ∨ (stop = [] ∧ rest = [])

theorem Stops.cases {stop : List Char} (h : Stops stop rest) :
    stop ++ rest = '\n' :: rest ∨ stop ++ rest = '\r' :: '\n' :: rest ∨
      (stop ++ rest = [] ∧ rest = []) := by
  unfold Stops at h
  grind

theorem Stops.head? {stop : List Char} (h : Stops stop rest) {c : Char}
    (first : (stop ++ rest).head? = some c) : c = '\n' ∨ c = '\r' := by
  rcases h.cases with eq | eq | ⟨eq, -⟩ <;> rw [eq] at first
  · exact .inl (Option.some.inj first).symm
  · exact .inr (Option.some.inj first).symm
  · cases first

theorem skipComment_of_ne {cs : List Char} (h : cs.head? ≠ some '#') : skipComment cs = cs := by
  unfold skipComment
  split
  · exact absurd rfl h
  · rfl

/-- A line's end is dropped with the blanks and the comment in front of it. -/
theorem restOfLine?_append {tail stop : List Char} (h : TailText tail) (stops : Stops stop rest) :
    restOfLine? (tail ++ (stop ++ rest)) = some rest := by
  have left : skipComment (skip (tail ++ (stop ++ rest))) = stop ++ rest := by
    cases h with
    | blanks blanks =>
      rw [skip_append blanks, skipComment_of_ne]
      · intro first
        rcases stops.head? first with h | h <;> cases h
      · intro c first
        rcases stops.head? first with rfl | rfl <;> rfl
    | comment blanks plain =>
      rw [List.append_assoc, List.cons_append, skip_append_cons blanks rfl]
      refine dropWhile_append_of_stop plain fun c first => ?_
      rcases stops.head? first with rfl | rfl <;> rfl
  rw [restOfLine?, left]
  rcases stops.cases with eq | eq | ⟨eq, rfl⟩ <;> rw [eq] <;> rfl

/-- Nothing at the end of a line goes on with a value. -/
theorem TailText.ends {tail stop : List Char} (h : TailText tail) (stops : Stops stop rest) :
    Ends (tail ++ (stop ++ rest)) := by
  have after {bs cs : List Char} (blanks : Blanks bs) (ends : Ends cs) : Ends (bs ++ cs) := by
    cases bs with
    | nil => exact ends
    | cons b bs =>
      rintro c ⟨⟩
      rcases blanks b List.mem_cons_self with rfl | rfl <;> decide
  cases h with
  | blanks blanks =>
    refine after blanks fun c first => ?_
    rcases stops.head? first with rfl | rfl <;> decide
  | comment blanks plain =>
    rw [List.append_assoc]
    refine after blanks ?_
    rintro c ⟨⟩
    decide

/-- A line that says something is not taken for an empty one. -/
theorem restOfLine?_eq_none {indent cs : List Char} {c : Char} (blanks : Blanks indent)
    (start : c ∉ [' ', '\t', '#', '\n', '\r']) : restOfLine? (indent ++ c :: cs) = none := by
  have comment : (c :: cs).head? ≠ some '#' := by
    rintro ⟨⟩
    exact start (by decide)
  rw [restOfLine?, skip_append_cons blanks (isBlank_eq_false start), skipComment_of_ne comment]
  unfold lineEnd?
  split
  · next eq => cases eq
  · split
    · next eq => exact absurd (by simp [(List.cons.inj eq).1]) start
    · next eq => exact absurd (by simp [(List.cons.inj eq).1]) start
    · rfl

theorem Blanks.head?_ne {bs cs : List Char} (h : Blanks bs) (other : cs.head? ≠ some '\ufeff') :
    (bs ++ cs).head? ≠ some '\ufeff' := by
  cases bs with
  | nil => exact other
  | cons b bs =>
    rintro ⟨⟩
    exact absurd (h _ List.mem_cons_self) (by decide)

theorem LineText.head?_ne {line : Line} {cs : List Char} (h : LineText line cs)
    (other : rest.head? ≠ some '\ufeff') : (cs ++ rest).head? ≠ some '\ufeff' := by
  cases h with
  | empty tail =>
    cases tail with
    | blanks blanks => exact blanks.head?_ne other
    | comment blanks plain =>
      rw [List.append_assoc]
      exact blanks.head?_ne (by simp)
  | pair blanks name =>
    obtain ⟨c, cs, rfl, start⟩ := name.exists_cons
    rw [List.append_assoc]
    refine blanks.head?_ne ?_
    rintro ⟨⟩
    exact start (by decide)
  | header blanks =>
    rw [List.append_assoc]
    exact blanks.head?_ne (by simp)

/-- No byte order mark is in front of lines. -/
theorem LinesText.head?_ne {lines : List Line} {cs : List Char} (h : LinesText lines cs) :
    cs.head? ≠ some '\ufeff' := by
  cases h with
  | nil => decide
  | @last line cs text =>
    have whole : (cs ++ []).head? ≠ some '\ufeff' := text.head?_ne (by decide)
    rwa [List.append_nil] at whole
  | cons text stops rest =>
    refine text.head?_ne fun mark => ?_
    rcases Stops.head? (.inl stops) mark with h | h <;> cases h

namespace Document

/-- What a line adds to a document. -/
def add? (d : Document) : Line → Option Document
  | .empty => some d
  | .pair key value => value.item?.bind fun item => d.addPair ([key], item)
  | .header key => d.openHeader [key] Table.openTable

theorem line?_pair {key : String} {value : Scalar} {ks left right vs : List Char}
    (name : KeyText key ks) (before : Blanks left) (after : Blanks right)
    (given : ScalarText value vs) (ends : Ends rest) :
    d.line? (ks ++ (left ++ '=' :: (right ++ (vs ++ rest)))) =
      (d.add? (.pair key value)).map fun d => (d, rest) := by
  have pair : pair? (value? maxDepth) (ks ++ (left ++ '=' :: (right ++ (vs ++ rest)))) =
      value.item?.map fun item => (([key], item), rest) := by
    have none_ : Blanks [] := fun c hc => nomatch hc
    have front : skip (right ++ (vs ++ rest)) = vs ++ rest := by
      obtain ⟨c, cs, eq, start⟩ := given.exists_cons rest
      rw [eq]
      exact skip_append_cons after (isBlank_eq_false start)
    rw [pair?, ← List.nil_append (ks ++ _), key?_append none_ name before (.inl rfl)]
    simp only [Option.bind_some, front, value?_append given ends]
    cases value.item? <;> rfl
  obtain ⟨c, cs, rfl, start⟩ := name.exists_cons
  rw [List.cons_append] at pair ⊢
  unfold line?
  split
  · next eq => exact absurd (by simp [(List.cons.inj eq).1]) start
  · next eq => exact absurd (by simp [(List.cons.inj eq).1]) start
  · rw [pair, add?]
    cases value.item? <;> simp

theorem line?_header {key : String} {left ks right : List Char} (before : Blanks left)
    (name : KeyText key ks) (after : Blanks right) :
    d.line? ('[' :: (left ++ (ks ++ (right ++ ']' :: rest)))) =
      (d.add? (.header key)).map fun d => (d, rest) := by
  unfold line?
  split
  · next eq =>
    -- Neither blanks nor a key begin with a bracket.
    cases left with
    | nil =>
      obtain ⟨c, cs, rfl, start⟩ := name.exists_cons
      exact absurd (by simp [(List.cons.inj (List.cons.inj eq).2).1]) start
    | cons b bs =>
      have blank := before b List.mem_cons_self
      simp [(List.cons.inj (List.cons.inj eq).2).1] at blank
  · next eq =>
    obtain ⟨-, rfl⟩ := List.cons.inj eq
    rw [key?_append before name after (.inr rfl)]
    rfl
  · next _ single => exact (single _ rfl).elim

theorem lines?_of_empty {cs : List Char} (h : restOfLine? cs = some rest)
    (shorter : rest.length < cs.length) : d.lines? cs = d.lines? rest := by
  have nonempty : cs.isEmpty = false := by
    cases cs with
    | nil => cases shorter
    | cons => rfl
  rw [lines?, nonempty]
  simp [h, shorter]

theorem lines?_of_line {cs tail : List Char} {read : Option Document}
    (solid : restOfLine? cs = none) (line : d.line? (skip cs) = read.map fun d => (d, tail))
    (h : restOfLine? tail = some rest) (shorter : rest.length < cs.length) :
    d.lines? cs = read.bind (lines? · rest) := by
  have nonempty : cs.isEmpty = false := by
    cases cs with
    | nil => cases shorter
    | cons => rfl
  rw [lines?, nonempty]
  cases read <;> simp [solid, line, h, shorter]

/-- A line is read from each of its texts. -/
theorem lines?_append {line : Line} {cs stop : List Char} (text : LineText line cs)
    (stops : Stops stop rest) :
    d.lines? (cs ++ (stop ++ rest)) = (d.add? line).bind (lines? · rest) := by
  cases text with
  | empty tail =>
    rw [add?, Option.bind_some]
    rcases Nat.lt_or_ge rest.length (cs ++ (stop ++ rest)).length with shorter | same
    · exact lines?_of_empty (restOfLine?_append tail stops) shorter
    · -- Nothing is there at all.
      have none_ : cs = [] ∧ stop = [] := by
        simp only [List.length_append] at same
        exact ⟨List.eq_nil_of_length_eq_zero (by omega), List.eq_nil_of_length_eq_zero (by omega)⟩
      rw [none_.1, none_.2]
      rfl
  | @pair key value indent ks left right vs tail blanks name before after given ending =>
    have line := line?_pair (d := d) name before after given (ending.ends stops)
    obtain ⟨c, cs, rfl, start⟩ := name.exists_cons
    have solid : c ∉ [' ', '\t', '#', '\n', '\r'] := fun h => start (List.mem_append_left _ h)
    refine lines?_of_line ?_ ?_ (restOfLine?_append ending stops) ?_
    · simpa using restOfLine?_eq_none blanks solid
    · have cut (cs : List Char) : skip (indent ++ c :: cs) = c :: cs :=
        skip_append_cons blanks (isBlank_eq_false start)
      rw [← line]
      simp [cut]
    · simp; omega
  | @header key indent ks left right tail blanks before name after ending =>
    have line := @line?_header d (tail ++ (stop ++ rest)) _ _ _ _ before name after
    refine lines?_of_line ?_ ?_ (restOfLine?_append ending stops) ?_
    · simpa using restOfLine?_eq_none blanks (c := '[') (by decide)
    · have cut (cs : List Char) : skip (indent ++ '[' :: cs) = '[' :: cs :=
        skip_append_cons blanks rfl
      rw [← line]
      simp [cut]
    · simp; omega

/-- The lines of a text are added in their order. -/
theorem lines?_eq {lines : List Line} {cs : List Char} (h : LinesText lines cs) (d : Document) :
    d.lines? cs = lines.foldlM add? d := by
  induction h generalizing d with
  | nil => simp [lines?]
  | @last line cs text =>
    have read : d.lines? (cs ++ ([] ++ [])) = _ := lines?_append text (.inr ⟨rfl, rfl⟩)
    rw [List.append_nil, List.append_nil] at read
    rw [read]
    simp [lines?]
  | cons text stops _ ih =>
    rw [lines?_append text (.inl stops), List.foldlM_cons]
    simp [ih]

/-- The table of a text. -/
theorem parse?_eq {lines : List Line} {text : String} (h : LinesText lines text.toList) :
    parse? text = (lines.foldlM add? {}).map (·.top) := by
  rw [parse?, if_neg h.head?_ne, lines?_eq h]

end Document

end WebCall.Toml
