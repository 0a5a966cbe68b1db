import WebCall.Text.Ascii
import WebCall.Toml.Line

/-!
# Quoted text of TOML

Text in double quotes knows escapes, text in single quotes does not. Text in one pair of quotes
stays on its line; text in triple quotes may run over several lines, of which an empty first one
does not count, and may hold up to two quotes in a row.
-/
namespace WebCall.Toml

/-- The character of an escape with one letter. -/
def letterEscape? (c : Char) : Option Char :=
  match c with
  | 'b' => some '\x08'
  | 't' => some '\t'
  | 'n' => some '\n'
  | 'f' => some '\x0c'
  | 'r' => some '\r'
  | '"' => some '"'
  | '\\' => some '\\'
  | _ => none

/-- Reads the character whose number stands in `width` hexadecimal digits. -/
def numberedChar? (width : Nat) (cs : List Char) : Option (Char × List Char) :=
  let digits := cs.take width
  let n := Text.ofDigits 16 digits
  if digits.length = width ∧ digits.all (Text.isDigitOf 16) ∧ n.isValidChar then
    some (Char.ofNat n, cs.drop width)
  else none

/-- Reads the character of an escape, after the backslash. -/
def escape? : List Char → Option (Char × List Char)
  | 'u' :: rest => numberedChar? 4 rest
  | 'U' :: rest => numberedChar? 8 rest
  | c :: rest => (letterEscape? c).map fun d => (d, rest)
  | [] => none

/-- Reads one character of a text in the given quotes, which is neither a quote nor a line end. -/
def quotedChar? (quote : Char) : List Char → Option (Char × List Char)
  | [] => none
  | c :: rest =>
    if c = '\\' ∧ quote = '"' then escape? rest
    else if c ≠ quote ∧ isPlain c then some (c, rest)
    else none

theorem length_numberedChar?_le {width : Nat} {cs rest : List Char} {c : Char}
    (h : numberedChar? width cs = some (c, rest)) : rest.length ≤ cs.length := by
  unfold numberedChar? at h
  grind

theorem length_escape? {cs rest : List Char} {c : Char} (h : escape? cs = some (c, rest)) :
    rest.length < cs.length := by
  unfold escape? at h
  grind [→ length_numberedChar?_le, Option.map_eq_some_iff]

theorem length_quotedChar? {quote c : Char} {cs rest : List Char}
    (h : quotedChar? quote cs = some (c, rest)) : rest.length < cs.length := by
  unfold quotedChar? at h
  grind [→ length_escape?]

/-- Reads a text up to the quote that ends it. -/
def lineTail? (quote : Char) (cs : List Char) : Option (List Char × List Char) :=
  if cs.head? = some quote then some ([], cs.tail)
  else
    match _h : quotedChar? quote cs with
    | some (c, rest) => (lineTail? quote rest).map fun r => (c :: r.1, r.2)
    | none => none
termination_by cs.length
decreasing_by exact length_quotedChar? _h

/-- Drops a backslash at the end of a line, with all blanks and line ends after it. -/
def foldedEnd? : List Char → Option (List Char)
  | '\\' :: rest => (lineEnd? (skip rest)).map skipLines
  | _ => none

/-- Reads a piece of a text in triple quotes: a line end, which is kept as a line feed, a folded
one, which is dropped, or a character. -/
def piece? (quote : Char) (cs : List Char) : Option (List Char × List Char) :=
  match lineEnd? cs with
  | some rest => some (['\n'], rest)
  | none =>
    match if quote = '"' then foldedEnd? cs else none with
    | some rest => some ([], rest)
    | none => (quotedChar? quote cs).map fun r => ([r.1], r.2)

theorem length_foldedEnd? {cs rest : List Char} (h : foldedEnd? cs = some rest) :
    rest.length < cs.length := by
  unfold foldedEnd? at h
  split at h
  · next tail =>
    obtain ⟨next, hn, rfl⟩ := Option.map_eq_some_iff.1 h
    have h1 := length_skipLines_le next
    have h2 := length_lineEnd? hn
    have h3 := length_skip_le tail
    simp only [List.length_cons]
    omega
  · cases h

theorem length_piece? {quote : Char} {cs rest text : List Char}
    (h : piece? quote cs = some (text, rest)) : rest.length < cs.length := by
  unfold piece? at h
  grind [→ length_lineEnd?, → length_foldedEnd?, → length_quotedChar?, Option.map_eq_some_iff]

/-- Reads a text up to the three quotes that end it. Of four or five in a row the last three do. -/
def blockTail? (quote : Char) (cs : List Char) : Option (List Char × List Char) :=
  let run := cs.takeWhile (· == quote)
  if 6 ≤ run.length then none
  else if 3 ≤ run.length then some (run.drop 3, cs.drop run.length)
  else if 1 ≤ run.length then
    (blockTail? quote (cs.drop run.length)).map fun r => (run ++ r.1, r.2)
  else
    match _h : piece? quote cs with
    | some (text, rest) => (blockTail? quote rest).map fun r => (text ++ r.1, r.2)
    | none => none
termination_by cs.length
decreasing_by
  · have := (List.takeWhile_sublist (p := (· == quote)) (l := cs)).length_le
    simp only [List.length_drop]
    grind
  · exact length_piece? _h

/-- Drops a line end, if there is one. -/
def skipLineEnd (cs : List Char) : List Char := (lineEnd? cs).getD cs

/-- Reads a text in one pair of quotes. -/
def lineText? : List Char → Option (List Char × List Char)
  | '"' :: rest => lineTail? '"' rest
  | '\x27' :: rest => lineTail? '\x27' rest
  | _ => none

/-- Reads a text in quotes of any kind. -/
def text? : List Char → Option (List Char × List Char)
  | '"' :: '"' :: '"' :: rest => blockTail? '"' (skipLineEnd rest)
  | '\x27' :: '\x27' :: '\x27' :: rest => blockTail? '\x27' (skipLineEnd rest)
  | rest => lineText? rest

end WebCall.Toml
