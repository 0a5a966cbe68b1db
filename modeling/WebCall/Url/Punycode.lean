import WebCall.Text.Ascii

/-!
# Punycode

Reading of the ASCII form of a domain label that holds other characters: the ASCII characters come
first, and after the last hyphen follow numbers in base 36 of variable length, which say where the
others are to be put in.
-/
namespace WebCall.Url.Punycode

/-- The value of a digit; letters come first. -/
def digit? (c : Char) : Option Nat :=
  (Text.digitValue? c).map fun n => if n < 10 then n + 26 else n - 10

/-- The threshold for the digit at position `k`, which counts in steps of 36. -/
def threshold (k bias : Nat) : Nat :=
  if k ≤ bias then 1 else if bias + 26 ≤ k then 26 else k - bias

/-- Divides until the rest is small. -/
def adaptLoop (delta k : Nat) : Nat × Nat :=
  if 455 < delta then adaptLoop (delta / 35) (k + 36) else (delta, k)
termination_by delta
decreasing_by exact Nat.div_lt_self (by omega) (by omega)

/-- The bias after a number. -/
def adapt (delta count : Nat) (first : Bool) : Nat :=
  let half := if first then delta / 700 else delta / 2
  let r := adaptLoop (half + half / count) 0
  r.2 + 36 * r.1 / (r.1 + 38)

/-- Reads one number: the place reached, and the characters after it. -/
def number? (bias : Nat) : (place weight k : Nat) → List Char → Option (Nat × List Char)
  | _, _, _, [] => none
  | place, weight, k, c :: rest =>
    match digit? c with
    | none => none
    | some d =>
      let place := place + d * weight
      let t := threshold k bias
      if d < t then some (place, rest) else number? bias place (weight * (36 - t)) (k + 36) rest

/-- Reads numbers until the text ends. `fuel` bounds how many there are. -/
def insertAll? : (fuel : Nat) → (code place bias : Nat) → (out : List Char) → List Char →
    Option (List Char)
  | _, _, _, _, out, [] => some out
  | 0, _, _, _, _, _ => none
  | fuel + 1, code, place, bias, out, cs =>
    match number? bias place 1 36 cs with
    | none => none
    | some (reached, rest) =>
      let count := out.length + 1
      let code := code + reached / count
      let slot := reached % count
      if 0x10FFFF < code ∨ (0xD800 ≤ code ∧ code ≤ 0xDFFF) then none
      else
        insertAll? fuel code (slot + 1) (adapt (reached - place) count (place == 0))
          (out.take slot ++ Char.ofNat code :: out.drop slot) rest

/-- The characters of a label. -/
def decode? (cs : List Char) : Option (List Char) :=
  let tail := (cs.reverse.takeWhile (· != '-')).reverse
  let head := cs.take (cs.length - tail.length)
  insertAll? cs.length 128 0 72 head.dropLast tail

end WebCall.Url.Punycode
