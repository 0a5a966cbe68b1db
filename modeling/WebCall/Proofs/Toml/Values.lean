import WebCall.Proofs.Text.Pieces
import WebCall.Proofs.Toml.Grammar

/-!
# Keys and values of TOML documents

Keys and values are read back from their spellings, whatever follows on the line. A whole number is
read if 64 bits hold it.

## Main definitions

* `lineTail?_append`: a text in quotes is read back.
* `key?_append`: a key is read back.
* `value?_append`: a value is read back.
-/
namespace WebCall.Toml

open Text (takeWhile_append_of_stop dropWhile_append_of_stop)

variable {rest : List Char}

/-! ## Quoted texts -/

theorem letterEscape?_of_mem {l c : Char} (h : (l, c) ∈ letterEscapes) :
    letterEscape? l = some c ∧ l ≠ 'u' ∧ l ≠ 'U' := by
  simp only [letterEscapes, List.mem_cons, Prod.mk.injEq, List.not_mem_nil, or_false] at h
  rcases h with ⟨rfl, rfl⟩ | ⟨rfl, rfl⟩ | ⟨rfl, rfl⟩ | ⟨rfl, rfl⟩ | ⟨rfl, rfl⟩ | ⟨rfl, rfl⟩ |
    ⟨rfl, rfl⟩ <;> decide

theorem numberedChar?_append {width : Nat} {c : Char} {ds : List Char} (h : CodeText width c ds)
    (rest : List Char) : numberedChar? width (ds ++ rest) = some (c, rest) := by
  obtain ⟨rfl, digits, value⟩ := h
  have valid : c.toNat.isValidChar := c.valid
  simp [numberedChar?, value, valid, List.all_eq_true.2 digits, Char.ofNat_toNat]

/-- A character is read back from its spellings. -/
theorem quotedChar?_append {c : Char} {ds : List Char} (h : CharText c ds) (rest : List Char) :
    quotedChar? '"' (ds ++ rest) = some (c, rest) := by
  cases h with
  | plain quote backslash plain => simp [quotedChar?, quote, backslash, plain]
  | letter escape =>
    obtain ⟨letter, short, long⟩ := letterEscape?_of_mem escape
    change escape? (_ :: rest) = _
    rw [escape?.eq_3 _ rest short long, letter]
    rfl
  | short code => exact numberedChar?_append code rest
  | long code => exact numberedChar?_append code rest

/-- No spelling of a character begins with a quote. -/
theorem CharText.head?_ne {c : Char} {ds : List Char} (h : CharText c ds) (rest : List Char) :
    (ds ++ rest).head? ≠ some '"' := by
  cases h with
  | plain quote => simpa using quote
  | letter | short | long => simp

theorem lineTail?_of_quotedChar? {quote c : Char} {cs tail : List Char}
    (inside : cs.head? ≠ some quote) (h : quotedChar? quote cs = some (c, tail)) :
    lineTail? quote cs = (lineTail? quote tail).map fun r => (c :: r.1, r.2) := by
  rw [lineTail?.eq_def, if_neg inside]
  split
  · next read =>
    cases read.symm.trans h
    rfl
  · next stuck => cases stuck.symm.trans h

/-- A text is read back from its spellings, up to the quote that ends it. -/
theorem lineTail?_append {s cs : List Char} (h : QuotedText s cs) (rest : List Char) :
    lineTail? '"' (cs ++ '"' :: rest) = some (s, rest) := by
  induction h with
  | nil => simp [lineTail?]
  | @cons c s cs ds first later ih =>
    rw [List.append_assoc, lineTail?_of_quotedChar? (first.head?_ne _) (quotedChar?_append first _),
      ih]
    rfl

/-- An empty text is not taken for the start of three quotes. -/
theorem text?_append {s cs : List Char} (h : QuotedText s cs) (stop : rest.head? ≠ some '"') :
    text? ('"' :: (cs ++ '"' :: rest)) = some (s, rest) := by
  have line : text? ('"' :: (cs ++ '"' :: rest)) = lineText? ('"' :: (cs ++ '"' :: rest)) := by
    unfold text?
    split
    · next eq =>
      rw [List.cons.injEq] at eq
      cases h with
      | nil => exact absurd (by rw [(List.cons.inj eq.2).2]; rfl) stop
      | cons first later =>
        rw [List.append_assoc] at eq
        exact absurd (by rw [eq.2]; rfl) (first.head?_ne _)
    · next eq => cases eq
    · rfl
  rw [line]
  exact lineTail?_append h rest

/-! ## Keys -/

/-- A key is read back from its spellings, up to a character that does not go on with it. -/
theorem keyPart?_append {key : String} {ks : List Char} (h : KeyText key ks)
    (stop : ∀ c, rest.head? = some c → isBare c = false) :
    keyPart? (ks ++ rest) = some (key, rest) := by
  cases h with
  | bare nonempty bare =>
    rw [keyPart?, takeWhile_append_of_stop bare stop, dropWhile_append_of_stop bare stop]
    split
    · exact absurd rfl nonempty
    · rfl
  | @quoted s cs text =>
    have none_ : (('"' :: (cs ++ ['"'])) ++ rest).takeWhile isBare = [] := rfl
    rw [keyPart?, none_]
    have read := lineTail?_append text rest
    simp [lineText?, read]

theorem isBlank_iff {c : Char} : isBlank c = true ↔ c = ' ' ∨ c = '\t' := by simp [isBlank]

theorem isBlank_eq_false {c : Char} {others : List Char} (h : c ∉ ' ' :: '\t' :: others) :
    isBlank c = false := by
  refine Bool.eq_false_iff.2 fun blank => h ?_
  rcases isBlank_iff.1 blank with rfl | rfl <;> simp

/-- Blanks in front are dropped, up to a character that is none. -/
theorem skip_append {bs : List Char} (h : Blanks bs)
    (stop : ∀ c, rest.head? = some c → isBlank c = false) : skip (bs ++ rest) = rest :=
  dropWhile_append_of_stop (fun c hc => isBlank_iff.2 (h c hc)) stop

theorem skip_append_cons {bs : List Char} {c : Char} (h : Blanks bs) (stop : isBlank c = false) :
    skip (bs ++ c :: rest) = c :: rest :=
  skip_append h fun _ hd => Option.some.inj hd ▸ stop

/-- A key begins with none of the characters that something else on a line begins with. -/
theorem KeyText.exists_cons {key : String} {ks : List Char} (h : KeyText key ks) :
    ∃ c cs, ks = c :: cs ∧ c ∉ [' ', '\t', '#', '\n', '\r', '[', '\ufeff'] := by
  cases h with
  | bare nonempty bare =>
    obtain ⟨c, cs, rfl⟩ := List.exists_cons_of_ne_nil nonempty
    refine ⟨c, cs, rfl, fun other => ?_⟩
    have none_ : [' ', '\t', '#', '\n', '\r', '[', '\ufeff'].all (!isBare ·) = true := by decide
    have solid := List.all_eq_true.1 none_ c other
    simp [bare c List.mem_cons_self] at solid
  | quoted text => exact ⟨_, _, rfl, by decide⟩

/-- A key of one part is read back with the blanks around it, up to the sign that follows. -/
theorem key?_append {key : String} {ks left right : List Char} {c : Char} (before : Blanks left)
    (name : KeyText key ks) (after : Blanks right) (stop : c = '=' ∨ c = ']') :
    key? (left ++ (ks ++ (right ++ c :: rest))) = some ([key], c :: rest) := by
  obtain ⟨solid, apart, point⟩ : isBlank c = false ∧ isBare c = false ∧ c ≠ '.' := by
    rcases stop with rfl | rfl <;> decide
  have front : skip (left ++ (ks ++ (right ++ c :: rest))) = ks ++ (right ++ c :: rest) := by
    obtain ⟨d, ds, rfl, start⟩ := name.exists_cons
    exact skip_append_cons before (isBlank_eq_false start)
  have ends : ∀ d, (right ++ c :: rest).head? = some d → isBare d = false := by
    cases right with
    | nil => simpa using apart
    | cons b bs => rcases after b List.mem_cons_self with rfl | rfl <;> simp [isBare] <;> decide
  change keyParts? (78 + 1) _ = _
  rw [keyParts?, front, keyPart?_append name ends]
  simp only [Option.bind_some, skip_append_cons after solid]
  split
  · next eq => exact absurd (List.cons.inj eq).1 point
  · rfl

/-! ## Numbers -/

/-- What may follow a value on its line. -/
def Ends (rest : List Char) : Prop :=
  ∀ c, rest.head? = some c → c ∈ [' ', '\t', '#', '\n', '\r']

theorem Ends.head?_ne (h : Ends rest) {c : Char} (other : c ∉ [' ', '\t', '#', '\n', '\r']) :
    rest.head? ≠ some c :=
  fun first => other (h c first)

/-- No digit follows. -/
theorem Ends.isDigit_eq_false (h : Ends rest) : ∀ c, rest.head? = some c → Text.isDigit c = false :=
  fun c first => Bool.eq_false_iff.2 fun digit =>
    h.head?_ne (Text.of_isDigit (p := (· ∉ [' ', '\t', '#', '\n', '\r'])) digit (by decide)) first

/-- Digits that begin a number are not taken for a point of time. -/
theorem expect?_of_fixedNumber? {width n : Nat} {ds tail : List Char} {c : Char}
    (digits : ∀ d ∈ ds, Text.isDigit d = true) (ends : Ends rest) (mark : c = '-' ∨ c = ':')
    (read : fixedNumber? width (ds ++ rest) = some (n, tail)) : expect? c tail = none := by
  rw [fixedNumber?, Option.ite_none_right_eq_some] at read
  obtain ⟨⟨-, front⟩, eq⟩ := read
  obtain ⟨-, rfl⟩ := Prod.mk.inj (Option.some.inj eq)
  by_contra found
  obtain ⟨x, found⟩ := Option.ne_none_iff_exists'.1 found
  obtain ⟨solid, apart⟩ : Text.isDigit c = false ∧ c ∉ [' ', '\t', '#', '\n', '\r'] := by
    rcases mark with rfl | rfl <;> decide
  have after : (ds ++ rest).drop width = c :: x := by
    unfold expect? at found
    grind
  have whole := List.take_append_drop width (ds ++ rest)
  rw [after] at whole
  have stop : ∀ d, (c :: x).head? = some d → Text.isDigit d = false := by simpa using solid
  have first := dropWhile_append_of_stop digits ends.isDigit_eq_false
  rw [← whole, dropWhile_append_of_stop (List.all_eq_true.1 front) stop] at first
  exact ends.head?_ne apart (by rw [← first]; rfl)

theorem moment?_eq_none {cs : List Char} (h : ∀ width n tail c, 0 < width → (c = '-' ∨ c = ':') →
    fixedNumber? width cs = some (n, tail) → expect? c tail = none) : moment? cs = none := by
  have date : date? cs = none := by
    rw [date?]
    cases read : fixedNumber? 4 cs with
    | none => rfl
    | some r => simp [h 4 r.1 r.2 '-' (by decide) (.inl rfl) read]
  have time : time? cs = none := by
    rw [time?, hourMinute?]
    cases read : fixedNumber? 2 cs with
    | none => rfl
    | some r => simp [h 2 r.1 r.2 ':' (by decide) (.inr rfl) read]
  rw [moment?, date, time]

theorem moreDigits?_cons {digit : Char → Bool} {c : Char} (h : c ≠ '_') (cs : List Char) :
    moreDigits? digit (c :: cs) =
      if digit c then (moreDigits? digit cs).map fun r => (c :: r.1, r.2)
      else some ([], c :: cs) := by
  rw [moreDigits?.eq_def]
  split
  · next eq => cases eq
  · next eq => exact absurd (List.cons.inj eq).1 h
  · next eq => exact absurd (List.cons.inj eq).1 h
  · next eq =>
    cases eq
    rfl

/-- Digits are read back, up to something that does not go on with them. -/
theorem moreDigits?_append {ds : List Char} (digits : ∀ d ∈ ds, Text.isDigit d = true)
    (ends : Ends rest) : moreDigits? Text.isDigit (ds ++ rest) = some (ds, rest) := by
  induction ds with
  | nil =>
    cases rest with
    | nil => rfl
    | cons c tail =>
      have apart : c ≠ '_' := fun same => ends.head?_ne (c := '_') (by decide) (same ▸ rfl)
      rw [List.nil_append, moreDigits?_cons apart, if_neg]
      simp [ends.isDigit_eq_false c rfl]
  | cons d ds ih =>
    have first := digits d List.mem_cons_self
    have solid : d ≠ '_' := Text.of_isDigit (p := (· ≠ '_')) first (by decide)
    rw [List.cons_append, moreDigits?_cons solid, if_pos first,
      ih fun c hc => digits c (List.mem_cons_of_mem d hc)]
    rfl

/-- The digits of a whole number are read back. -/
theorem whole?_append (n : Nat) (ends : Ends rest) :
    whole? (Nat.toDigits 10 n ++ rest) = some (Nat.toDigits 10 n, rest) := by
  have lead : ¬ ((Nat.toDigits 10 n).head? = some '0' ∧ (Nat.toDigits 10 n).length ≠ 1) := by
    rintro ⟨zero, many⟩
    rcases Nat.eq_zero_or_pos n with rfl | positive
    · exact many rfl
    · exact Text.head?_toDigits_ne (by decide) (by decide) positive zero
  obtain ⟨d, ds, eq⟩ := List.exists_cons_of_ne_nil (Nat.toDigits_ne_nil (b := 10) (n := n))
  have digits : ∀ c ∈ d :: ds, Text.isDigit c = true := fun c hc =>
    Text.isDigit_of_mem_toDigits (eq ▸ hc)
  rw [eq] at lead ⊢
  have read : digits? Text.isDigit (d :: ds ++ rest) = some (d :: ds, rest) := by
    rw [List.cons_append, digits?, if_pos (digits d List.mem_cons_self),
      moreDigits?_append (fun c hc => digits c (List.mem_cons_of_mem d hc)) ends]
    rfl
  rw [whole?, read, Option.bind_some, if_neg lead]

theorem fraction?_of_ends (ends : Ends rest) : fraction? rest = some (none, rest) := by
  unfold fraction?
  split
  · exact absurd rfl (ends.head?_ne (c := '.') (by decide))
  · rfl

theorem exponent?_of_ends (ends : Ends rest) : exponent? rest = some (none, rest) := by
  unfold exponent?
  split
  · exact absurd rfl (ends.head?_ne (c := 'e') (by decide))
  · exact absurd rfl (ends.head?_ne (c := 'E') (by decide))
  · rfl

/-- A number begins with a digit, after its sign. -/
theorem exists_digit (n : Nat) (rest : List Char) :
    ∃ d cs, Nat.toDigits 10 n ++ rest = d :: cs ∧ Text.isDigit d = true := by
  obtain ⟨d, ds, eq⟩ := List.exists_cons_of_ne_nil (Nat.toDigits_ne_nil (b := 10) (n := n))
  exact ⟨d, ds ++ rest, by rw [eq, List.cons_append],
    Text.isDigit_of_mem_toDigits (n := n) (by rw [eq]; exact List.mem_cons_self)⟩

theorem sign_of_isDigit {d : Char} (h : Text.isDigit d = true) (cs : List Char) :
    sign (d :: cs) = (false, d :: cs) := by
  have bare : d ≠ '-' ∧ d ≠ '+' := Text.of_isDigit (p := fun d => d ≠ '-' ∧ d ≠ '+') h (by decide)
  unfold sign
  split
  · next eq => exact absurd (List.cons.inj eq).1 bare.1
  · next eq => exact absurd (List.cons.inj eq).1 bare.2
  · rfl

theorem mem_signs {n : Int} {mark : List Char} (h : mark ∈ signs n) :
    (0 ≤ n ∧ (mark = [] ∨ mark = ['+'])) ∨ (n ≤ 0 ∧ mark = ['-']) := by
  unfold signs at h
  grind

/-- A sign is cut off the digits of a number. -/
theorem sign_append {n : Int} {mark : List Char} (h : mark ∈ signs n) (rest : List Char) :
    ∃ minus, sign (mark ++ (Nat.toDigits 10 n.natAbs ++ rest)) =
        (minus, Nat.toDigits 10 n.natAbs ++ rest) ∧
      (if minus then -(n.natAbs : Int) else n.natAbs) = n := by
  rcases mem_signs h with ⟨positive, rfl | rfl⟩ | ⟨negative, rfl⟩
  · obtain ⟨d, cs, eq, digit⟩ := exists_digit n.natAbs rest
    exact ⟨false, by rw [eq]; exact sign_of_isDigit digit cs,
      Int.natAbs_of_nonneg positive⟩
  · exact ⟨false, rfl, Int.natAbs_of_nonneg positive⟩
  · exact ⟨true, rfl, by rw [if_pos rfl]; omega⟩

theorem decimal?_append {n : Int} {mark : List Char} (signed : mark ∈ signs n)
    (ends : Ends rest) : decimal? (mark ++ (Nat.toDigits 10 n.natAbs ++ rest)) =
      (integer? n).map fun item => (item, rest) := by
  obtain ⟨minus, cut, value⟩ := sign_append signed rest
  have digits : Text.ofDigits 10 (Nat.toDigits 10 n.natAbs) = n.natAbs :=
    Text.ofDigits_toDigits (by decide) (by decide) n.natAbs
  simp only [decimal?, cut, whole?_append n.natAbs ends, fraction?_of_ends ends,
    exponent?_of_ends ends, Option.bind_some, ofParts?, digits, value]

/-- A zero in front is the only digit. -/
theorem head?_of_zero {n : Nat} {b : Char} {tail : List Char}
    (h : Nat.toDigits 10 n ++ rest = '0' :: b :: tail) : rest.head? = some b := by
  rcases Nat.eq_zero_or_pos n with rfl | positive
  · have after : rest = b :: tail := (List.cons.inj h).2
    rw [after]
    rfl
  · obtain ⟨d, ds, eq⟩ := List.exists_cons_of_ne_nil (Nat.toDigits_ne_nil (b := 10) (n := n))
    have lead : (Nat.toDigits 10 n).head? ≠ some '0' :=
      Text.head?_toDigits_ne (by decide) (by decide) positive
    rw [eq] at h lead
    exact absurd (congrArg some (List.cons.inj h).1) lead

theorem number?_append {n : Int} {mark : List Char} (signed : mark ∈ signs n)
    (ends : Ends rest) : number? (mark ++ (Nat.toDigits 10 n.natAbs ++ rest)) =
      (integer? n).map fun item => (item, rest) := by
  have read := decimal?_append signed ends
  obtain ⟨minus, cut, -⟩ := sign_append signed rest
  -- No letter for a base follows a zero in front.
  have based {b : Char} {tail : List Char} (other : b ∉ [' ', '\t', '#', '\n', '\r'])
      (eq : mark ++ (Nat.toDigits 10 n.natAbs ++ rest) = '0' :: b :: tail) : False := by
    rw [eq, sign_of_isDigit (by decide)] at cut
    exact ends.head?_ne other (head?_of_zero (Prod.mk.inj cut).2.symm)
  obtain ⟨d, cs, first, digit⟩ := exists_digit n.natAbs rest
  have letters : d ≠ 'i' ∧ d ≠ 'n' :=
    Text.of_isDigit (p := fun d => d ≠ 'i' ∧ d ≠ 'n') digit (by decide)
  unfold number?
  split
  · next eq => exact (based (by decide) eq).elim
  · next eq => exact (based (by decide) eq).elim
  · next eq => exact (based (by decide) eq).elim
  · rw [cut, first]
    split
    · next eq => exact absurd (List.cons.inj eq).1 letters.1
    · next eq => exact absurd (List.cons.inj eq).1 letters.2
    · rwa [first] at read

/-- A number is not taken for a point of time. -/
theorem moment?_of_number {n : Int} {mark : List Char} (signed : mark ∈ signs n)
    (ends : Ends rest) : moment? (mark ++ (Nat.toDigits 10 n.natAbs ++ rest)) = none := by
  refine moment?_eq_none fun width m tail c wide stop read => ?_
  cases mark with
  | nil =>
    exact expect?_of_fixedNumber? (fun d hd => Text.isDigit_of_mem_toDigits hd) ends stop read
  | cons sign mark =>
    have bare : Text.isDigit sign = false := by
      rcases mem_signs signed with ⟨-, empty | plus⟩ | ⟨-, minus⟩
      · cases empty
      · cases plus
        rfl
      · cases minus
        rfl
    obtain ⟨width, rfl⟩ := Nat.exists_eq_add_of_lt wide
    simp [fixedNumber?, bare] at read

/-! ## Values -/

/-- The item that a value stands for, if there is one: an integer has 64 bits. -/
def Scalar.item? : Scalar → Option Item
  | text s => some (.string s)
  | whole n => integer? n

/-- A number begins with none of the characters that other values begin with. -/
theorem exists_start {n : Int} {mark : List Char} (signed : mark ∈ signs n) (rest : List Char) :
    ∃ c cs, mark ++ (Nat.toDigits 10 n.natAbs ++ rest) = c :: cs ∧
      c ∉ [' ', '\t', 't', 'f', '"', '\x27', '[', '\x7b'] := by
  rcases mem_signs signed with ⟨-, rfl | rfl⟩ | ⟨-, rfl⟩
  · obtain ⟨d, cs, eq, digit⟩ := exists_digit n.natAbs rest
    exact ⟨d, cs, eq,
      Text.of_isDigit (p := (· ∉ [' ', '\t', 't', 'f', '"', '\x27', '[', '\x7b'])) digit
        (by decide)⟩
  · exact ⟨'+', _, rfl, by decide⟩
  · exact ⟨'-', _, rfl, by decide⟩

theorem scalar?_append {value : Scalar} {vs : List Char} (h : ScalarText value vs)
    (ends : Ends rest) : scalar? (vs ++ rest) = value.item?.map fun item => (item, rest) := by
  cases h with
  | @text s cs text =>
    have read := text?_append text (ends.head?_ne (c := '"') (by decide))
    have whole : ('"' :: (cs ++ ['"'])) ++ rest = '"' :: (cs ++ '"' :: rest) := by simp
    rw [whole, scalar?, read]
    rfl
  | @whole n mark signed =>
    rw [List.append_assoc]
    have number := number?_append signed ends
    have moment := moment?_of_number signed ends
    obtain ⟨c, cs, eq, start⟩ := exists_start signed rest
    rw [eq] at number moment ⊢
    unfold scalar?
    split
    · next eq => exact absurd (by simp [(List.cons.inj eq).1]) start
    · next eq => exact absurd (by simp [(List.cons.inj eq).1]) start
    · next eq => exact absurd (by simp [(List.cons.inj eq).1]) start
    · next eq => exact absurd (by simp [(List.cons.inj eq).1]) start
    · rwa [moment]

/-- No value begins with a blank or a bracket. -/
theorem ScalarText.exists_cons {value : Scalar} {vs : List Char} (h : ScalarText value vs)
    (rest : List Char) : ∃ c cs, vs ++ rest = c :: cs ∧ c ∉ [' ', '\t', '[', '\x7b'] := by
  cases h with
  | text => exact ⟨'"', _, rfl, by decide⟩
  | whole signed =>
    obtain ⟨c, cs, eq, start⟩ := exists_start signed rest
    refine ⟨c, cs, by rwa [List.append_assoc], fun h => start ?_⟩
    simp only [List.mem_cons] at h ⊢
    tauto

/-- A value is read back from its spellings, if there is an item for it. -/
theorem value?_append {value : Scalar} {vs : List Char} (h : ScalarText value vs)
    (ends : Ends rest) :
    value? maxDepth (vs ++ rest) = value.item?.map fun item => (item, rest) := by
  rw [← scalar?_append h ends]
  change value? (78 + 1) _ = _
  obtain ⟨c, cs, eq, start⟩ := h.exists_cons rest
  rw [eq, value?]
  all_goals
    rintro tail ⟨⟩
    exact start (by decide)

end WebCall.Toml
