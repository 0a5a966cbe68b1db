import WebCall.Binary64.Shortest
import WebCall.Text.Ascii

/-!
# Values of JSON

Whole numbers of 64 bits are kept exactly, every other number as a floating-point magnitude with a
sign. The digits of a number are gathered in a 64-bit word; those that do not fit are dropped, and
the word is then scaled once by a power of ten. The result can therefore differ from the nearest
magnitude in its last bit.

## Main definitions

* `Number.ofNumeral?`: the number that a numeral stands for.
* `Number.text`: how a number is written.
* `Json.lookup`: the value of a key in an object.
-/
namespace WebCall.Json

/-- A number of a JSON text. -/
inductive Number
  /-- A whole number that a signed or unsigned word of 64 bits holds. -/
  | whole (value : Int)
  /-- Any other number, and zero with a minus sign. -/
  | real (negative : Bool) (magnitude : Binary64)
  deriving DecidableEq, Repr

/-- The parts of a number as it is written. -/
structure Numeral where
  /-- Whether a minus sign stands in front. -/
  negative : Bool
  /-- The digits before the point. -/
  whole : List Char
  /-- The digits after the point, if there is one. -/
  fraction : Option (List Char)
  /-- The exponent, if there is one: whether it is negative, and its digits. -/
  exponent : Option (Bool × List Char)
  deriving DecidableEq, Repr

namespace Number

/-- Appends digits to a word for as long as the word has room for them. The result holds the word
and how many digits went into it. -/
def gather : (word : Nat) → (digits : List Char) → Nat × Nat
  | word, [] => (word, 0)
  | word, d :: ds =>
    let longer := Text.ofDigits 10 [d] + word * 10
    if longer < Nat.pow 2 64 then
      let r := gather longer ds
      (r.1, r.2 + 1)
    else (word, 0)

/-- The greatest exponent whose power of ten is a magnitude. -/
def maxPower : Nat := 308

/-- A power of ten as a magnitude. -/
def tenTo (n : Nat) : Binary64 := (Binary64.ofNat (Nat.pow 10 n)).getD .zero

/-- A magnitude times a power of ten, rounded once, or divided by one. A great negative exponent
divides by the greatest power first. There is no result where the product would be infinite. -/
def scale (x : Binary64) (exponent : Int) : Option Binary64 :=
  if x.isZero then some x
  else if _fits : exponent.natAbs ≤ maxPower then
    if 0 ≤ exponent then x.mul (tenTo exponent.natAbs) else x.div (tenTo exponent.natAbs)
  else if _up : 0 ≤ exponent then none
  else (x.div (tenTo maxPower)).bind fun y => scale y (exponent + maxPower)
termination_by exponent.natAbs
decreasing_by
  have : (maxPower : Int) = 308 := rfl
  omega

/-- The value of a signed exponent. -/
def exponentValue : Option (Bool × List Char) → Int
  | none => 0
  | some (negative, digits) =>
    let n : Int := Text.ofDigits 10 digits
    if negative then -n else n

/-- The number that a numeral stands for; `none` where it is too great for a magnitude. -/
def ofNumeral? (n : Numeral) : Option Number :=
  let whole := gather 0 n.whole
  let dropped := n.whole.length - whole.2
  if n.fraction.isNone && n.exponent.isNone && dropped == 0 then
    if !n.negative then some (.whole whole.1)
    else if whole.1 = 0 ∨ Nat.pow 2 63 < whole.1 then
      (Binary64.ofNat whole.1).map (.real true)
    else some (.whole (-(whole.1 : Int)))
  else
    let word := gather whole.1 (n.fraction.getD [])
    let exponent := (dropped : Int) - word.2 + exponentValue n.exponent
    (Binary64.ofNat word.1).bind fun x => (scale x exponent).map (.real n.negative)

/-- The decimal digits of a number. -/
def decimalDigits (n : Nat) : List Char := Nat.toDigits 10 n

/-- Drops the zeros at the end of a number's digits and counts them. -/
def withoutZeros (cs : List Char) : List Char × Nat :=
  let zeros := cs.reverse.takeWhile (· == '0')
  ((cs.reverse.dropWhile (· == '0')).reverse, zeros.length)

/-- Magnitudes from `10^-5` on and below `10^16` are written out, with at least one digit on each
side of the point. All others have one digit before the point, the rest after it if there is any,
and an exponent, with its sign. -/
def magnitudeText (x : Binary64) : List Char :=
  if x.isZero then ['0', '.', '0']
  else
    let d := x.shortest
    let cut := withoutZeros (decimalDigits d.digits)
    let digits := cut.1
    -- the point stands after this many digits
    let point : Int := (digits.length : Int) + d.exp + cut.2
    if -5 < point ∧ point ≤ 16 then
      if point ≤ 0 then
        ['0', '.'] ++ List.replicate (-point).toNat '0' ++ digits
      else if point.toNat < digits.length then
        digits.take point.toNat ++ '.' :: digits.drop point.toNat
      else digits ++ List.replicate (point.toNat - digits.length) '0' ++ ['.', '0']
    else
      let power := point - 1
      let sign := if power < 0 then '-' else '+'
      let head := match digits with
        | [] => []
        | [d] => [d]
        | d :: ds => d :: '.' :: ds
      head ++ 'e' :: sign :: decimalDigits power.natAbs

/-- How a number is written. -/
def text : Number → String
  | whole value => toString value
  | real negative x =>
    .ofList (if negative then '-' :: magnitudeText x else magnitudeText x)

end Number

end WebCall.Json

namespace WebCall

/-- A JSON value. An object keeps its members as they were written, repeated keys included. -/
inductive Json
  | null
  | bool (value : Bool)
  | number (value : Json.Number)
  | string (value : String)
  | array (items : List Json)
  | object (members : List (String × Json))
  deriving Inhabited

namespace Json

/-- The members of an object; `none` for every other value. -/
def members? : Json → Option (List (String × Json))
  | object members => some members
  | _ => none

/-- The value of a key; the last of equal keys wins. -/
def lookup (members : List (String × Json)) (key : String) : Option Json :=
  (members.reverse.find? fun m => m.1 == key).map (·.2)

/-- The text of a string, a number or a truth value. Nothing else has one. -/
def scalarText? : Json → Option String
  | string s => some s
  | number n => some n.text
  | bool b => some (if b then "true" else "false")
  | _ => none

end Json

end WebCall
