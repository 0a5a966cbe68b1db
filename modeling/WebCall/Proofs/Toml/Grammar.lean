import WebCall.Proofs.Text.Digits
import WebCall.Toml.Document

/-!
# A grammar of simple TOML documents

Which texts stand for a sequence of lines, each of which is empty, gives a key a text or a whole
number, or opens a table. A line has many texts: blanks may stand between its parts and a comment
after them, a key may be written with quotes or without, and each character in quotes as itself or
as an escape.

## Main definitions

* `CharText`, `QuotedText`: the spellings of a character and of a text.
* `KeyText`, `ScalarText`: the spellings of a key and of a value.
* `Line`, `LineText`: a line and its texts.
* `TableLines`: the lines of one table.
* `LinesText`: the texts of a sequence of lines.
-/
namespace WebCall.Toml

/-! ## Quoted texts -/

/-- Hexadecimal digits, capital or small, for the number of a character. -/
structure CodeText (width : Nat) (c : Char) (ds : List Char) : Prop where
  count : ds.length = width
  digits : ∀ d ∈ ds, Text.isDigitOf 16 d = true
  value : Text.ofDigits 16 ds = c.toNat

/-- The escapes with one letter, and their characters. -/
def letterEscapes : List (Char × Char) :=
  [('b', '\x08'), ('t', '\t'), ('n', '\n'), ('f', '\x0c'), ('r', '\r'), ('"', '"'), ('\\', '\\')]

/-- The spellings of a character in quotes. -/
inductive CharText : Char → List Char → Prop
  /-- The character itself, unless it is a quote, a backslash or a control. -/
  | plain {c : Char} (quote : c ≠ '"') (backslash : c ≠ '\\') (plain : isPlain c = true) :
      CharText c [c]
  /-- An escape with a letter. -/
  | letter {l c : Char} (escape : (l, c) ∈ letterEscapes) : CharText c ['\\', l]
  /-- An escape with the number of the character in four digits. -/
  | short {c : Char} {ds : List Char} (code : CodeText 4 c ds) : CharText c ('\\' :: 'u' :: ds)
  /-- An escape with the number of the character in eight digits. -/
  | long {c : Char} {ds : List Char} (code : CodeText 8 c ds) : CharText c ('\\' :: 'U' :: ds)

/-- The spellings of a text, without its quotes. -/
inductive QuotedText : List Char → List Char → Prop
  | nil : QuotedText [] []
  | cons {c : Char} {s cs ds : List Char} (first : CharText c cs) (rest : QuotedText s ds) :
      QuotedText (c :: s) (cs ++ ds)

/-! ## Keys and values -/

/-- The spellings of a key: letters, digits, dashes and underscores as they are, or a text in
quotes. -/
inductive KeyText : String → List Char → Prop
  | bare {cs : List Char} (nonempty : cs ≠ []) (bare : ∀ c ∈ cs, isBare c = true) :
      KeyText (.ofList cs) cs
  | quoted {s cs : List Char} (text : QuotedText s cs) : KeyText (.ofList s) ('"' :: (cs ++ ['"']))

/-- A value that a line gives. -/
inductive Scalar
  | text (s : String)
  | whole (n : Int)
  deriving DecidableEq, Repr

/-- The signs that a whole number may have. -/
def signs (n : Int) : List (List Char) :=
  (if 0 ≤ n then [[], ['+']] else []) ++ if n ≤ 0 then [['-']] else []

/-- The spellings of a value: a text in quotes, or a whole number in decimal digits. -/
inductive ScalarText : Scalar → List Char → Prop
  | text {s cs : List Char} (text : QuotedText s cs) :
      ScalarText (.text (.ofList s)) ('"' :: (cs ++ ['"']))
  | whole {n : Int} {sign : List Char} (signed : sign ∈ signs n) :
      ScalarText (.whole n) (sign ++ Nat.toDigits 10 n.natAbs)

/-! ## Lines -/

/-- What a line says. -/
inductive Line
  /-- Nothing; there may be a comment. -/
  | empty
  /-- A key has a value. -/
  | pair (key : String) (value : Scalar)
  /-- The keys that follow are those of a table. -/
  | header (key : String)
  deriving DecidableEq, Repr

/-- The keys that lines give, with their values. -/
def entries (lines : List Line) : List (String × Scalar) :=
  lines.filterMap fun
    | .pair key value => some (key, value)
    | _ => none

/-- The lines of one table: none of them opens another one, and each key is given once. -/
structure TableLines (lines : List Line) : Prop where
  flat : ∀ line ∈ lines, ∀ key, line ≠ .header key
  distinct : ((entries lines).map Prod.fst).Nodup

/-- Blanks between the parts of a line. -/
def Blanks (cs : List Char) : Prop := ∀ c ∈ cs, c = ' ' ∨ c = '\t'

/-- Blanks, and perhaps a comment, at the end of a line. -/
inductive TailText : List Char → Prop
  | blanks {cs : List Char} (blanks : Blanks cs) : TailText cs
  | comment {cs text : List Char} (blanks : Blanks cs) (plain : ∀ c ∈ text, isPlain c = true) :
      TailText (cs ++ '#' :: text)

/-- The texts of a line, without its end. -/
inductive LineText : Line → List Char → Prop
  | empty {tail : List Char} (rest : TailText tail) : LineText .empty tail
  | pair {key : String} {value : Scalar} {indent ks left right vs tail : List Char}
      (blanks : Blanks indent) (name : KeyText key ks) (before : Blanks left)
      (after : Blanks right) (given : ScalarText value vs) (rest : TailText tail) :
      LineText (.pair key value) (indent ++ (ks ++ (left ++ '=' :: (right ++ (vs ++ tail)))))
  | header {key : String} {indent ks left right tail : List Char}
      (blanks : Blanks indent) (before : Blanks left) (name : KeyText key ks)
      (after : Blanks right) (rest : TailText tail) :
      LineText (.header key) (indent ++ '[' :: (left ++ (ks ++ (right ++ ']' :: tail))))

/-- The texts of lines. Each ends with a line feed, perhaps after a carriage return; the last one
may also end with the text. -/
inductive LinesText : List Line → List Char → Prop
  | nil : LinesText [] []
  | last {line : Line} {cs : List Char} (text : LineText line cs) : LinesText [line] cs
  | cons {line : Line} {lines : List Line} {cs stop ds : List Char} (text : LineText line cs)
      (stops : stop ∈ [['\n'], ['\r', '\n']]) (rest : LinesText lines ds) :
      LinesText (line :: lines) (cs ++ (stop ++ ds))

/-! ## Every line can be written -/

/-- Four digits for the number of a character of ASCII. -/
theorem exists_codeText {c : Char} (h : c.toNat < 128) : ∃ ds, CodeText 4 c ds := by
  have high : c.toNat / 16 < 16 := by omega
  have low : c.toNat % 16 < 16 := by omega
  refine ⟨['0', '0', Nat.digitChar (c.toNat / 16), Nat.digitChar (c.toNat % 16)], rfl, ?_, ?_⟩
  · intro d hd
    simp only [List.mem_cons, List.not_mem_nil, or_false] at hd
    rcases hd with rfl | rfl | rfl | rfl
    · rfl
    · rfl
    · exact Text.isDigitOf_digitChar (by decide) high
    · exact Text.isDigitOf_digitChar (by decide) low
  · have front : Text.digitValue? '0' = some 0 := rfl
    simp only [Text.ofDigits, List.foldl_cons, List.foldl_nil, front,
      Text.digitValue?_digitChar _ high, Text.digitValue?_digitChar _ low, Option.getD_some]
    omega

theorem exists_charText (c : Char) : ∃ cs, CharText c cs := by
  by_cases quote : c = '"'
  · exact ⟨['\\', '"'], .letter (by subst quote; decide)⟩
  by_cases backslash : c = '\\'
  · exact ⟨['\\', '\\'], .letter (by subst backslash; decide)⟩
  by_cases plain : isPlain c = true
  · exact ⟨[c], .plain quote backslash plain⟩
  · have control : c.toNat < 128 := by
      simp only [isPlain, Bool.or_eq_true, Bool.and_eq_true, decide_eq_true_eq, bne_iff_ne] at plain
      omega
    obtain ⟨ds, code⟩ := exists_codeText control
    exact ⟨_, .short code⟩

theorem exists_quotedText (s : List Char) : ∃ cs, QuotedText s cs := by
  induction s with
  | nil => exact ⟨[], .nil⟩
  | cons c s ih =>
    obtain ⟨cs, first⟩ := exists_charText c
    obtain ⟨ds, later⟩ := ih
    exact ⟨cs ++ ds, .cons first later⟩

theorem exists_keyText (key : String) : ∃ cs, KeyText key cs := by
  obtain ⟨cs, text⟩ := exists_quotedText key.toList
  have spelled := KeyText.quoted text
  rw [String.ofList_toList] at spelled
  exact ⟨_, spelled⟩

theorem exists_scalarText (value : Scalar) : ∃ cs, ScalarText value cs := by
  cases value with
  | text s =>
    obtain ⟨cs, text⟩ := exists_quotedText s.toList
    have spelled := ScalarText.text text
    rw [String.ofList_toList] at spelled
    exact ⟨_, spelled⟩
  | whole n =>
    rcases Int.le_total 0 n with positive | negative
    · have signed : [] ∈ signs n := by simp [signs, positive]
      exact ⟨_, .whole signed⟩
    · have signed : ['-'] ∈ signs n := by simp [signs, negative]
      exact ⟨_, .whole signed⟩

theorem exists_lineText (line : Line) : ∃ cs, LineText line cs := by
  have none_ : Blanks [] := fun c hc => nomatch hc
  cases line with
  | empty => exact ⟨[], .empty (.blanks none_)⟩
  | pair key value =>
    obtain ⟨ks, name⟩ := exists_keyText key
    obtain ⟨vs, given⟩ := exists_scalarText value
    exact ⟨_, .pair none_ name none_ none_ given (.blanks none_)⟩
  | header key =>
    obtain ⟨ks, name⟩ := exists_keyText key
    exact ⟨_, .header none_ none_ name none_ (.blanks none_)⟩

/-- Every sequence of lines has a text. -/
theorem exists_linesText (lines : List Line) : ∃ cs, LinesText lines cs := by
  induction lines with
  | nil => exact ⟨[], .nil⟩
  | cons line lines ih =>
    obtain ⟨cs, first⟩ := exists_lineText line
    obtain ⟨ds, later⟩ := ih
    exact ⟨_, .cons first List.mem_cons_self later⟩

end WebCall.Toml
