import WebCall.Json.Value

/-!
# Reading JSON

A reader for JSON texts. It is strict: no comments, no comma after the last item, no number with
leading zeros, no control character inside a string, no half of a surrogate pair. Arrays and
objects may be nested 127 deep.

Each reader takes the characters that are left and returns what it read with the characters after
it, or `none` for a text that is wrong at this place. The readers of values take a bound on the
number of their own steps; a text never needs more steps than it has characters.
-/
namespace WebCall.Json

/-- The blanks that may stand between the parts of a text. -/
def isSpace (c : Char) : Bool := c == ' ' || c == '\n' || c == '\t' || c == '\r'

/-- Drops the blanks in front. -/
def skip (cs : List Char) : List Char := cs.dropWhile isSpace

/-- Reads four hexadecimal digits. -/
def hex4? : List Char → Option (Nat × List Char)
  | a :: b :: c :: d :: rest =>
    if [a, b, c, d].all (Text.isDigitOf 16) then some (Text.ofDigits 16 [a, b, c, d], rest)
    else none
  | _ => none

/-- The character that a pair of surrogates stands for. -/
def surrogatePair (high low : Nat) : Char :=
  Char.ofNat (0x10000 + (high - 0xD800) * 0x400 + (low - 0xDC00))

/-- Reads the character after a backslash and `u`: four digits, or two times four for a character
that takes a pair of surrogates. -/
def unicodeEscape? (cs : List Char) : Option (Char × List Char) :=
  match hex4? cs with
  | none => none
  | some (n, rest) =>
    if n < 0xD800 ∨ 0xDFFF < n then some (Char.ofNat n, rest)
    else if 0xDC00 ≤ n then none
    else match rest with
      | '\\' :: 'u' :: rest =>
        match hex4? rest with
        | some (low, rest) =>
          if 0xDC00 ≤ low ∧ low ≤ 0xDFFF then some (surrogatePair n low, rest) else none
        | none => none
      | _ => none

/-- The character of an escape with one letter. -/
def letterEscape? (c : Char) : Option Char :=
  match c with
  | '"' => some '"'
  | '\\' => some '\\'
  | '/' => some '/'
  | 'b' => some '\x08'
  | 'f' => some '\x0c'
  | 'n' => some '\n'
  | 'r' => some '\r'
  | 't' => some '\t'
  | _ => none

/-- Reads one character of a string, written as itself or as an escape. The closing quote and bare
controls are no characters of a string. -/
def stringChar? : List Char → Option (Char × List Char)
  | '\\' :: 'u' :: rest => unicodeEscape? rest
  | '\\' :: c :: rest => (letterEscape? c).map fun d => (d, rest)
  | '\\' :: [] => none
  | c :: rest => if c = '"' ∨ c.toNat < 0x20 then none else some (c, rest)
  | [] => none

theorem length_of_hex4? {cs rest : List Char} {n : Nat} (h : hex4? cs = some (n, rest)) :
    rest.length < cs.length := by
  unfold hex4? at h
  split at h
  · split at h
    · obtain ⟨-, rfl⟩ := by simpa using h
      simp only [List.length_cons]; omega
    · cases h
  · cases h

theorem length_of_unicodeEscape? {cs rest : List Char} {c : Char}
    (h : unicodeEscape? cs = some (c, rest)) : rest.length < cs.length := by
  unfold unicodeEscape? at h
  grind [→ length_of_hex4?]

/-- A character takes at least one character of the text. -/
theorem length_of_stringChar? {cs rest : List Char} {c : Char}
    (h : stringChar? cs = some (c, rest)) : rest.length < cs.length := by
  unfold stringChar? at h
  grind [→ length_of_unicodeEscape?, Option.map_eq_some_iff]

/-- Reads a string up to its closing quote. -/
def stringTail? (cs : List Char) : Option (List Char × List Char) :=
  match cs with
  | '"' :: rest => some ([], rest)
  | cs =>
    match _h : stringChar? cs with
    | some (c, rest) => (stringTail? rest).map fun r => (c :: r.1, r.2)
    | none => none
termination_by cs.length
decreasing_by exact length_of_stringChar? _h

/-- Cuts the decimal digits off the front. -/
def takeDigits (cs : List Char) : List Char × List Char :=
  (cs.takeWhile Text.isDigit, cs.dropWhile Text.isDigit)

/-- Reads the digits after a decimal point, if there is one. -/
def fraction? : List Char → Option (Option (List Char) × List Char)
  | '.' :: rest =>
    let cut := takeDigits rest
    if cut.1.isEmpty then none else some (some cut.1, cut.2)
  | rest => some (none, rest)

/-- Reads the optional sign and the digits after an exponent's letter. -/
def exponentTail? (cs : List Char) : Option ((Bool × List Char) × List Char) :=
  let signed := match cs with
    | '-' :: rest => (true, rest)
    | '+' :: rest => (false, rest)
    | rest => (false, rest)
  let cut := takeDigits signed.2
  if cut.1.isEmpty then none else some ((signed.1, cut.1), cut.2)

/-- Reads an exponent, if there is one. -/
def exponent? : List Char → Option (Option (Bool × List Char) × List Char)
  | 'e' :: rest => (exponentTail? rest).map fun r => (some r.1, r.2)
  | 'E' :: rest => (exponentTail? rest).map fun r => (some r.1, r.2)
  | rest => some (none, rest)

/-- Reads the parts of a number. A zero in front is followed by no other digit. -/
def numeral? (cs : List Char) : Option (Numeral × List Char) :=
  let signed := match cs with
    | '-' :: rest => (true, rest)
    | rest => (false, rest)
  let whole := takeDigits signed.2
  if whole.1.isEmpty || (whole.1.head? == some '0' && whole.1.length != 1) then none
  else
    (fraction? whole.2).bind fun fraction =>
      (exponent? fraction.2).map fun exponent =>
        (⟨signed.1, whole.1, fraction.1, exponent.1⟩, exponent.2)

/-- Reads a number. -/
def number? (cs : List Char) : Option (Number × List Char) :=
  (numeral? cs).bind fun n => (Number.ofNumeral? n.1).map fun value => (value, n.2)

/-- How deep arrays and objects may be nested. -/
def maxDepth : Nat := 127

mutual

/-- Reads a value and no blanks around it. `depth` is how many arrays and objects may still be
opened. -/
def value? : (steps depth : Nat) → List Char → Option (Json × List Char)
  | 0, _, _ => none
  | steps + 1, depth, cs =>
    match cs with
    | 'n' :: 'u' :: 'l' :: 'l' :: rest => some (.null, rest)
    | 't' :: 'r' :: 'u' :: 'e' :: rest => some (.bool true, rest)
    | 'f' :: 'a' :: 'l' :: 's' :: 'e' :: rest => some (.bool false, rest)
    | '"' :: rest => (stringTail? rest).map fun r => (.string (.ofList r.1), r.2)
    | '[' :: rest =>
      match depth with
      | 0 => none
      | depth + 1 =>
        match skip rest with
        | ']' :: rest => some (.array [], rest)
        | rest => (items? steps depth rest).map fun r => (.array r.1, r.2)
    | '\x7b' :: rest =>
      match depth with
      | 0 => none
      | depth + 1 =>
        match skip rest with
        | '\x7d' :: rest => some (.object [], rest)
        | rest => (membersTail? steps depth rest).map fun r => (.object r.1, r.2)
    | cs => (number? cs).map fun r => (.number r.1, r.2)

/-- Reads the items of an array up to its closing bracket; there is at least one. -/
def items? : (steps depth : Nat) → List Char → Option (List Json × List Char)
  | 0, _, _ => none
  | steps + 1, depth, cs =>
    (value? steps depth cs).bind fun item =>
      match skip item.2 with
      | ']' :: rest => some ([item.1], rest)
      | ',' :: rest => (items? steps depth (skip rest)).map fun r => (item.1 :: r.1, r.2)
      | _ => none

/-- Reads the members of an object up to its closing brace; there is at least one. -/
def membersTail? : (steps depth : Nat) → List Char → Option (List (String × Json) × List Char)
  | 0, _, _ => none
  | steps + 1, depth, cs =>
    match cs with
    | '"' :: rest =>
      (stringTail? rest).bind fun key =>
        match skip key.2 with
        | ':' :: rest =>
          (value? steps depth (skip rest)).bind fun value =>
            let member := (String.ofList key.1, value.1)
            match skip value.2 with
            | '\x7d' :: rest => some ([member], rest)
            | ',' :: rest =>
              (membersTail? steps depth (skip rest)).map fun r => (member :: r.1, r.2)
            | _ => none
        | _ => none
    | _ => none

end

/-- The value of a JSON text: one value with nothing but blanks around it. -/
def parse? (text : String) : Option Json :=
  let cs := skip text.toList
  match value? (2 * cs.length + 1) maxDepth cs with
  | some (value, rest) => if (skip rest).isEmpty then some value else none
  | none => none

end WebCall.Json
