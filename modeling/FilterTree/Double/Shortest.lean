import FilterTree.Double.Basic

/-!
# The shortest decimal of a double

A double is written with the fewest decimal digits that still single it
out: those of a decimal number that lies nearer to it than to any other
double. The decimals that single out a magnitude form an interval around
its worth, reaching halfway to the magnitude below and halfway to the one
above. The two ends belong to the even magnitudes, because rounding sends a
half to them.

The decimals with exponent `e` form a grid, the multiples of `10 ^ e`, and
each grid refines the next coarser one. So the fewest digits are found on
the **coarsest** grid with a point in the interval. If a grid has points
there then one of the two that enclose the double's own worth is among
them, so two candidates are tried on each grid. When both fit, the nearer
one is taken. Only a double exactly between the two leaves a choice, and
that is a parameter (`Tie`), since texts of different kinds make it
differently.

All comparisons are exact. Lengths are counted in half units, of
`2 ^ -1075`, in which the ends of the interval are natural numbers.
-/

namespace FilterTree

/-- **A decimal number**, `significand * 10 ^ exponent`. -/
structure Decimal where
  /-- The digits, as one number. -/
  significand : Nat
  /-- How many places the last digit stands before the point. -/
  exponent : Int
deriving DecidableEq, Repr

/-- What becomes of a number exactly between two grid points. -/
inductive Tie where
  /-- The even grid point is taken. -/
  | toEven
  /-- The upper grid point is taken. -/
  | up
deriving DecidableEq, Repr

/-- The one of `lower` and `lower + 1` that a tie goes to. -/
def Tie.break (tie : Tie) (lower : Nat) : Nat :=
  match tie with
  | .toEven => lower + lower % 2
  | .up => lower + 1

namespace Double

/-- The lower end of the decimals that single out a positive magnitude, in
half units. -/
def intervalLow (magnitude : Nat) : Nat := units (magnitude - 1) + units magnitude

/-- The upper end of the decimals that single out a magnitude, in half
units. -/
def intervalHigh (magnitude : Nat) : Nat := units magnitude + units (magnitude + 1)

/-- **Singling out**: whether `num / den` half units round to the given
positive magnitude. The ends count for an even magnitude. -/
def singledOut (magnitude num den : Nat) : Bool :=
  if magnitude % 2 = 0 then
    intervalLow magnitude * den ≤ num && num ≤ intervalHigh magnitude * den
  else
    intervalLow magnitude * den < num && num < intervalHigh magnitude * den

/-- **The best point of a grid**: the significand of the multiple of
`10 ^ exponent` that singles the magnitude out and is nearest to it, if one
of the two multiples around it does. -/
def gridPoint? (tie : Tie) (magnitude : Nat) (exponent : Int) : Option Nat :=
  let step := (Nat.pow 10 exponent.toNat) <<< 1075
  let den := Nat.pow 10 (-exponent).toNat
  let worth := 2 * units magnitude * den
  let lower := worth / step
  match singledOut magnitude (lower * step) den, singledOut magnitude ((lower + 1) * step) den with
  | true, true =>
    let middle := (2 * lower + 1) * step
    if 2 * worth < middle then some lower
    else if middle < 2 * worth then some (lower + 1)
    else some (tie.break lower)
  | true, false => some lower
  | false, true => some (lower + 1)
  | false, false => none

/-- **Where the search starts**: no multiple of a coarser power of ten
singles the magnitude out, because `3011 / 10000` is more than the decimal
logarithm of two and half a unit more than `10 ^ -324`. -/
def topExponent (magnitude : Nat) : Int :=
  ((units magnitude).log2 * 3011 / 10000 : Nat) - 322

/-- **The shortest decimal** that singles out a positive magnitude, looked
for from the coarsest grid downwards. The search ends well before its last
grid, since multiples of `10 ^ -324` stand closer than any two doubles. -/
def shortest (tie : Tie) (magnitude : Nat) : Decimal :=
  let top := topExponent magnitude
  let point := (List.range 700).findSome? fun (below : Nat) =>
    let exponent := top - below
    (gridPoint? tie magnitude exponent).map fun significand => ⟨significand, exponent⟩
  point.getD ⟨0, 0⟩

end Double

end FilterTree
