/-!
# Binary floating point

Magnitudes of the binary64 format in exact arithmetic: a number is `mant · 2^exp`. Products and
quotients are rounded to the nearest magnitude, and to the one with the even significand when two
are equally near. Signs are kept by the users of this module.
-/
namespace WebCall

/-- A finite magnitude of the binary64 format, `mant · 2^exp`. The significand has 53 bits at most,
and fewer only at the least exponent. -/
structure Binary64 where
  /-- The significand. -/
  mant : Nat
  /-- The exponent of two. -/
  exp : Int
  deriving DecidableEq, Repr, Inhabited

namespace Binary64

/-- The least exponent. -/
def minExp : Int := -1074

/-- The greatest exponent. -/
def maxExp : Int := 971

/-- The magnitude zero. -/
def zero : Binary64 := ⟨0, minExp⟩

/-- Whether the magnitude is zero. -/
def isZero (x : Binary64) : Bool := x.mant == 0

/-- A quotient rounded to the nearest whole number, and to the even one of two. -/
def divNearest (num den : Nat) : Nat :=
  let low := num / den
  let rest := 2 * (num % den)
  if rest < den then low
  else if den < rest then low + 1
  else if low % 2 = 0 then low else low + 1

/-- The numerator and denominator of `num / den` divided by `2^scale`. -/
def rescale (num den : Nat) (scale : Int) : Nat × Nat :=
  if 0 ≤ scale then (num, den * Nat.pow 2 scale.toNat)
  else (num * Nat.pow 2 (-scale).toNat, den)

/-- The magnitude nearest to `num / den`; `none` where the format has only infinity. -/
def nearest (num den : Nat) : Option Binary64 :=
  if num = 0 then some zero
  else
    let guess : Int := (num.log2 : Int) - (den.log2 : Int) - 53
    let trial := rescale num den guess
    let exact := if trial.1 / trial.2 < Nat.pow 2 53 then guess else guess + 1
    let scale := max exact minExp
    let ratio := rescale num den scale
    let mant := divNearest ratio.1 ratio.2
    let x : Binary64 := if mant = Nat.pow 2 53 then ⟨Nat.pow 2 52, scale + 1⟩ else ⟨mant, scale⟩
    if maxExp < x.exp then none else some x

/-- The magnitude nearest to a whole number. -/
def ofNat (n : Nat) : Option Binary64 := nearest n 1

/-- The numerator of a magnitude as a fraction. -/
def num (x : Binary64) : Nat := if 0 ≤ x.exp then x.mant * Nat.pow 2 x.exp.toNat else x.mant

/-- The denominator of a magnitude as a fraction. -/
def den (x : Binary64) : Nat := if 0 ≤ x.exp then 1 else Nat.pow 2 (-x.exp).toNat

/-- The rounded product. -/
def mul (x y : Binary64) : Option Binary64 := nearest (x.num * y.num) (x.den * y.den)

/-- The rounded quotient; `none` for a zero divisor. -/
def div (x y : Binary64) : Option Binary64 :=
  if y.isZero then none else nearest (x.num * y.den) (x.den * y.num)

end Binary64

end WebCall
