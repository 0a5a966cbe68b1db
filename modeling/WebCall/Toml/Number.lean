import WebCall.Text.Ascii
import WebCall.Toml.Item

/-!
# Numbers of TOML

Integers in four bases and floats. Digits may have single underscores between them. An integer has
64 bits with a sign; bases other than ten know no sign.
-/
namespace WebCall.Toml

/-- Reads further digits, each of which may have an underscore in front. -/
def moreDigits? (digit : Char → Bool) : List Char → Option (List Char × List Char)
  | [] => some ([], [])
  | ['_'] => none
  | '_' :: c :: rest =>
    if digit c then (moreDigits? digit rest).map fun r => (c :: r.1, r.2) else none
  | c :: rest =>
    if digit c then (moreDigits? digit rest).map fun r => (c :: r.1, r.2)
    else some ([], c :: rest)

/-- Reads at least one digit; the underscores between the digits are dropped. -/
def digits? (digit : Char → Bool) : List Char → Option (List Char × List Char)
  | c :: rest =>
    if digit c then (moreDigits? digit rest).map fun r => (c :: r.1, r.2) else none
  | [] => none

/-- The integers from `-2^63` up to `2^63 - 1`. -/
def integer? (n : Int) : Option Item :=
  if -Int.pow 2 63 ≤ n ∧ n < Int.pow 2 63 then some (.integer n) else none

/-- Reads the digits of an integer in a base other than ten. -/
def basedInteger? (base : Nat) (cs : List Char) : Option (Item × List Char) :=
  (digits? (Text.isDigitOf base) cs).bind fun r =>
    (integer? (Text.ofDigits base r.1)).map fun item => (item, r.2)

/-- Cuts a sign off the front; `true` stands for minus. -/
def sign : List Char → Bool × List Char
  | '-' :: rest => (true, rest)
  | '+' :: rest => (false, rest)
  | rest => (false, rest)

/-- Reads the whole part of a decimal number. A zero in front is followed by no other digit. -/
def whole? (cs : List Char) : Option (List Char × List Char) :=
  (digits? Text.isDigit cs).bind fun r =>
    if r.1.head? = some '0' ∧ r.1.length ≠ 1 then none else some r

/-- Reads the digits after a decimal point, if there is one. -/
def fraction? : List Char → Option (Option (List Char) × List Char)
  | '.' :: rest => (digits? Text.isDigit rest).map fun r => (some r.1, r.2)
  | rest => some (none, rest)

/-- Reads the digits of an exponent, after its letter. -/
def exponentTail? (cs : List Char) : Option (Option Int × List Char) :=
  let signed := sign cs
  (digits? Text.isDigit signed.2).map fun r =>
    let n : Int := Text.ofDigits 10 r.1
    (some (if signed.1 then -n else n), r.2)

/-- Reads an exponent, if there is one. -/
def exponent? : List Char → Option (Option Int × List Char)
  | 'e' :: rest => exponentTail? rest
  | 'E' :: rest => exponentTail? rest
  | rest => some (none, rest)

/-- Half a unit above the greatest float: what is written from here on is taken for infinite. -/
def floatLimit : Nat := Nat.pow 2 1024 - Nat.pow 2 970

/-- Whether `digits · 10 ^ scale` is too large for a float. A number with more than 310 places
before the point always is and one with less than 309 never, so that no huge power is computed. -/
def isInfinite (digits : List Char) (scale : Int) : Bool :=
  let digits := digits.dropWhile (· == '0')
  let places := digits.length + scale
  if digits.isEmpty ∨ places < 309 then false
  else if 310 < places then true
  else if 0 ≤ scale then floatLimit ≤ Text.ofDigits 10 digits * Nat.pow 10 scale.toNat
  else floatLimit * Nat.pow 10 (-scale).toNat ≤ Text.ofDigits 10 digits

/-- The number with the given sign and parts. A fraction or an exponent makes it a float, which may
be minus infinity for its size, but not plus infinity. -/
def ofParts? (minus : Bool) (whole : List Char) (fraction : Option (List Char))
    (exponent : Option Int) : Option Item :=
  match fraction, exponent with
  | none, none =>
    let n : Int := Text.ofDigits 10 whole
    integer? (if minus then -n else n)
  | _, _ =>
    let places := fraction.getD []
    if !minus && isInfinite (whole ++ places) (exponent.getD 0 - places.length) then none
    else some .float

/-- Reads a number in base ten. -/
def decimal? (cs : List Char) : Option (Item × List Char) :=
  let signed := sign cs
  (whole? signed.2).bind fun whole =>
    (fraction? whole.2).bind fun fraction =>
      (exponent? fraction.2).bind fun exponent =>
        (ofParts? signed.1 whole.1 fraction.1 exponent.1).map fun item => (item, exponent.2)

/-- Reads a number. -/
def number? (cs : List Char) : Option (Item × List Char) :=
  match cs with
  | '0' :: 'x' :: rest => basedInteger? 16 rest
  | '0' :: 'o' :: rest => basedInteger? 8 rest
  | '0' :: 'b' :: rest => basedInteger? 2 rest
  | cs =>
    match (sign cs).2 with
    | 'i' :: 'n' :: 'f' :: rest => some (.float, rest)
    | 'n' :: 'a' :: 'n' :: rest => some (.float, rest)
    | _ => decimal? cs

end WebCall.Toml
