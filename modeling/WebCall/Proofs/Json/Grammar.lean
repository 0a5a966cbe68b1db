import WebCall.Json.Reader

/-!
# The grammar of JSON texts

Which texts stand for a JSON value. A value has many texts: blanks may stand between the parts, each
character of a string may be written as itself or as an escape, and a key of an object may come
again, when its last value counts. Whole numbers are written in decimal digits, and arrays and
objects are nested at most so deep.

## Main definitions

* `CharText`, `StringText`: the spellings of a character and of a string.
* `NumberText`: the spellings of a number.
* `ValueText`: the texts of a value, without blanks around it.
* `IsText`: the texts of a value.
-/
namespace WebCall.Json

/-- Blanks between the parts of a text. -/
def Blanks (cs : List Char) : Prop := ∀ c ∈ cs, c ∈ [' ', '\n', '\t', '\r']

/-! ## Strings -/

/-- Four hexadecimal digits, capital or small, for a number. -/
structure Hex4 (cs : List Char) (n : Nat) : Prop where
  count : cs.length = 4
  digits : ∀ c ∈ cs, Text.isDigitOf 16 c = true
  value : Text.ofDigits 16 cs = n

/-- The escapes with one letter, and their characters. -/
def letterEscapes : List (Char × Char) :=
  [('"', '"'), ('\\', '\\'), ('/', '/'), ('b', '\x08'), ('f', '\x0c'), ('n', '\n'), ('r', '\r'),
    ('t', '\t')]

/-- The spellings of a character of a string. -/
inductive CharText : Char → List Char → Prop
  /-- The character itself, unless it is a quote, a backslash or a control. -/
  | plain {c : Char} (quote : c ≠ '"') (backslash : c ≠ '\\') (printable : 0x20 ≤ c.toNat) :
      CharText c [c]
  /-- An escape with a letter. -/
  | letter {l c : Char} (escape : (l, c) ∈ letterEscapes) : CharText c ['\\', l]
  /-- An escape with the number of the character. -/
  | unit {c : Char} {ds : List Char} (hex : Hex4 ds c.toNat) : CharText c ('\\' :: 'u' :: ds)
  /-- Two such escapes, with a pair of surrogates. -/
  | pair {c : Char} {ds es : List Char} {high low : Nat} (first : Hex4 ds high)
      (second : Hex4 es low) (highs : 0xD800 ≤ high ∧ high ≤ 0xDBFF)
      (lows : 0xDC00 ≤ low ∧ low ≤ 0xDFFF)
      (value : c.toNat = 0x10000 + (high - 0xD800) * 0x400 + (low - 0xDC00)) :
      CharText c ('\\' :: 'u' :: (ds ++ '\\' :: 'u' :: es))

/-- The spellings of a string, without its quotes. -/
inductive StringText : List Char → List Char → Prop
  | nil : StringText [] []
  | cons {c : Char} {s cs ds : List Char} (first : CharText c cs) (rest : StringText s ds) :
      StringText (c :: s) (cs ++ ds)

/-! ## Numbers -/

/-- Decimal digits, at least one. -/
structure Digits (cs : List Char) : Prop where
  nonempty : cs ≠ []
  digits : ∀ c ∈ cs, Text.isDigit c = true

/-- The digits after a decimal point, if there is one. -/
inductive FractionText : Option (List Char) → List Char → Prop
  | absent : FractionText none []
  | present {ds : List Char} (digits : Digits ds) : FractionText (some ds) ('.' :: ds)

/-- The signs of an exponent. -/
def exponentSigns (negative : Bool) : List (List Char) := if negative then [['-']] else [[], ['+']]

/-- An exponent, if there is one. -/
inductive ExponentText : Option (Bool × List Char) → List Char → Prop
  | absent : ExponentText none []
  | present {negative : Bool} {letter : Char} {sign ds : List Char} (mark : letter ∈ ['e', 'E'])
      (signed : sign ∈ exponentSigns negative) (digits : Digits ds) :
      ExponentText (some (negative, ds)) (letter :: (sign ++ ds))

/-- The text of the parts of a number. A zero in front is the only digit before the point. -/
inductive NumeralText : Numeral → List Char → Prop
  | mk {negative : Bool} {whole fs es : List Char} {fraction : Option (List Char)}
      {exponent : Option (Bool × List Char)} (digits : Digits whole)
      (lead : whole.head? = some '0' → whole = ['0']) (point : FractionText fraction fs)
      (power : ExponentText exponent es) :
      NumeralText ⟨negative, whole, fraction, exponent⟩
        ((if negative then ['-'] else []) ++ (whole ++ (fs ++ es)))

/-- A whole number in decimal digits, with a minus sign if it is below zero. -/
def decimal (n : Int) : List Char :=
  (if n < 0 then ['-'] else []) ++ Nat.toDigits 10 n.natAbs

/-- The spellings of a number. A whole number of 64 bits has one. -/
inductive NumberText : Number → List Char → Prop
  | whole {n : Int} (low : -Int.pow 2 63 ≤ n) (high : n < Int.pow 2 64) :
      NumberText (.whole n) (decimal n)
  | real {numeral : Numeral} {cs : List Char} {negative : Bool} {x : Binary64}
      (parts : NumeralText numeral cs)
      (value : Number.ofNumeral? numeral = some (.real negative x)) :
      NumberText (.real negative x) cs

/-! ## Values -/

mutual

/-- The texts of a value in which so many arrays and objects may be opened. -/
inductive ValueText : Nat → Json → List Char → Prop
  | null {depth : Nat} : ValueText depth .null ['n', 'u', 'l', 'l']
  | boolTrue {depth : Nat} : ValueText depth (.bool true) ['t', 'r', 'u', 'e']
  | boolFalse {depth : Nat} : ValueText depth (.bool false) ['f', 'a', 'l', 's', 'e']
  | string {depth : Nat} {s cs : List Char} (text : StringText s cs) :
      ValueText depth (.string (.ofList s)) ('"' :: (cs ++ ['"']))
  | number {depth : Nat} {n : Number} {cs : List Char} (text : NumberText n cs) :
      ValueText depth (.number n) cs
  | emptyArray {depth : Nat} {blanks : List Char} (inside : Blanks blanks) :
      ValueText (depth + 1) (.array []) ('[' :: (blanks ++ [']']))
  | array {depth : Nat} {items : List Json} {blanks cs : List Char} (inside : Blanks blanks)
      (text : ItemsText depth items cs) :
      ValueText (depth + 1) (.array items) ('[' :: (blanks ++ (cs ++ [']'])))
  | emptyObject {depth : Nat} {blanks : List Char} (inside : Blanks blanks) :
      ValueText (depth + 1) (.object []) ('\x7b' :: (blanks ++ ['\x7d']))
  | object {depth : Nat} {members : List (String × Json)} {blanks cs : List Char}
      (inside : Blanks blanks) (text : MembersText depth members cs) :
      ValueText (depth + 1) (.object members) ('\x7b' :: (blanks ++ (cs ++ ['\x7d'])))

/-- The texts of the items of an array, of which there is one at least, up to its bracket. -/
inductive ItemsText : Nat → List Json → List Char → Prop
  | last {depth : Nat} {item : Json} {cs after : List Char} (text : ValueText depth item cs)
      (blanks : Blanks after) : ItemsText depth [item] (cs ++ after)
  | more {depth : Nat} {item : Json} {items : List Json} {cs after before ds : List Char}
      (text : ValueText depth item cs) (blanks : Blanks after) (blanks' : Blanks before)
      (rest : ItemsText depth items ds) :
      ItemsText depth (item :: items) (cs ++ (after ++ ',' :: (before ++ ds)))

/-- The text of a member of an object: a key, a colon and a value. -/
inductive MemberText : Nat → String × Json → List Char → Prop
  | mk {depth : Nat} {key ks : List Char} {value : Json} {before after cs : List Char}
      (name : StringText key ks) (blanks : Blanks before) (blanks' : Blanks after)
      (text : ValueText depth value cs) :
      MemberText depth (.ofList key, value)
        ('"' :: (ks ++ '"' :: (before ++ ':' :: (after ++ cs))))

/-- The texts of the members of an object, of which there is one at least, up to its brace. -/
inductive MembersText : Nat → List (String × Json) → List Char → Prop
  | last {depth : Nat} {member : String × Json} {cs after : List Char}
      (text : MemberText depth member cs) (blanks : Blanks after) :
      MembersText depth [member] (cs ++ after)
  | more {depth : Nat} {member : String × Json} {members : List (String × Json)}
      {cs after before ds : List Char} (text : MemberText depth member cs) (blanks : Blanks after)
      (blanks' : Blanks before) (rest : MembersText depth members ds) :
      MembersText depth (member :: members) (cs ++ (after ++ ',' :: (before ++ ds)))

end

/-- The texts of a value: blanks may stand around it, and it is nested 127 deep at most. -/
def IsText (t : Json) (text : String) : Prop :=
  ∃ before cs after, Blanks before ∧ ValueText 127 t cs ∧ Blanks after ∧
    text.toList = before ++ (cs ++ after)

end WebCall.Json
