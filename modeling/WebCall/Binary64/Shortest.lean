import WebCall.Binary64.Basic

/-!
# Shortest decimals

The decimal with the fewest digits that reads back as a given magnitude, and the nearest one of
these. A decimal reads back when it lies in the interval of reals that round to the magnitude; the
ends belong to it when the significand is even.
-/
namespace WebCall.Binary64

/-- A decimal number `digits · 10^exp`. -/
structure Decimal where
  /-- The digits, as one number. -/
  digits : Nat
  /-- The exponent of ten. -/
  exp : Int
  deriving DecidableEq, Repr

/-- Numerator and denominator of a decimal. -/
def Decimal.fraction (d : Decimal) : Nat × Nat :=
  if 0 ≤ d.exp then (d.digits * Nat.pow 10 d.exp.toNat, 1)
  else (d.digits, Nat.pow 10 (-d.exp).toNat)

/-- Whether the magnitude below `x` is only half as far away as the one above it. -/
def isBinadeStart (x : Binary64) : Bool := x.mant == Nat.pow 2 52 && minExp < x.exp

/-- Whether a decimal lies in the interval of reals that round to `x`. All terms are quarters of
the distance from `x` to the magnitude above it, over a common denominator. -/
def readsBack (x : Binary64) (d : Decimal) : Bool :=
  let f := d.fraction
  let unit := rescale 1 1 x.exp
  -- unit.2 / unit.1 is the distance to the magnitude above
  let value := 4 * f.1 * unit.1
  let step := f.2 * unit.2
  let low := (4 * x.mant - (if x.isBinadeStart then 1 else 2)) * step
  let high := (4 * x.mant + 2) * step
  if x.mant % 2 = 0 then low ≤ value && value ≤ high else low < value && value < high

/-- The greatest exponent of ten whose power is at most a positive magnitude. -/
def log10 (x : Binary64) : Int :=
  if x.den ≤ x.num then ((Nat.toDigits 10 (x.num / x.den)).length : Int) - 1
  else
    match (List.range 400).find? fun j => x.den ≤ x.num * Nat.pow 10 j with
    | some j => -(j : Int)
    | none => 0

/-- The two decimals next to `x` with `count` digits, the lower one first. -/
def neighbours (x : Binary64) (count : Nat) : Decimal × Decimal :=
  let exp := x.log10 + 1 - count
  let scaled := if 0 ≤ exp then x.num / (x.den * Nat.pow 10 exp.toNat)
    else x.num * Nat.pow 10 (-exp).toNat / x.den
  (⟨scaled, exp⟩, ⟨scaled + 1, exp⟩)

/-- Whether the upper of two neighbours is nearer to `x`, or as near and the one with even
digits. -/
def upperIsNearer (x : Binary64) (low high : Decimal) : Bool :=
  let fl := low.fraction
  let fh := high.fraction
  -- compares x - low with high - x
  let twice := 2 * x.num * fl.2
  let sum := (fl.1 + fh.1) * x.den
  if twice = sum then low.digits % 2 == 1 else sum < twice

/-- The neighbour of `x` with `count` digits that reads back and is the nearer of two such. -/
def shortestWith? (x : Binary64) (count : Nat) : Option Decimal :=
  let pair := x.neighbours count
  match x.readsBack pair.1, x.readsBack pair.2 with
  | true, true => some (if x.upperIsNearer pair.1 pair.2 then pair.2 else pair.1)
  | true, false => some pair.1
  | false, true => some pair.2
  | false, false => none

/-- The nearest of the decimals with the fewest digits that read back. Seventeen digits always
suffice. -/
def shortest (x : Binary64) : Decimal :=
  if x.isZero then ⟨0, 0⟩
  else ((List.range 18).findSome? fun n => if n = 0 then none else x.shortestWith? n).getD
    (x.neighbours 17).1

end WebCall.Binary64
