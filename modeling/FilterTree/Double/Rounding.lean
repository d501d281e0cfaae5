import FilterTree.Double.Basic

/-!
# Rounding to a double

An exact quotient of natural numbers is rounded to the nearest magnitude,
and a quotient halfway between two magnitudes goes to the even one.

The rounding is one division. A quotient in units of `2 ^ -1074` with `b`
bits before the point lies in a binade spaced by `2 ^ (b - 53)` units, or
by one unit if `b` is smaller. Dividing by that spacing and rounding to an
integer gives a number of at most 53 bits, and adding it to the start of
the binade gives the magnitude. If rounding carried into a 54th bit then
the sum lands on the first magnitude of the next binade, which is the
right one, so no case is needed for it. Magnitudes here have no upper
bound: what rounds to `Double.infinite` or above is out of range, and it is
the caller who says what that means.
-/

namespace FilterTree

/-- **The integer nearest to a quotient**, a half going to the even
neighbour. -/
def roundHalfEven (num den : Nat) : Nat :=
  let floor := num / den
  let twice := 2 * (num % den)
  if twice < den then floor
  else if den < twice then floor + 1
  else floor + floor % 2

namespace Double

/-- **The magnitude nearest to a quotient**, a half going to the even
magnitude. -/
def nearest (num den : Nat) : Nat :=
  let scaled := num <<< 1074
  let above := (scaled / den).log2 - 52
  above * binade + roundHalfEven scaled (den <<< above)

@[simp] theorem nearest_zero (den : Nat) : nearest 0 den = 0 := by
  simp [nearest, roundHalfEven]

/-- The rounded product of two magnitudes. -/
def product (m n : Nat) : Nat :=
  nearest (units m * units n) (1 <<< 2148)

/-- The rounded quotient of two magnitudes. -/
def quotient (m n : Nat) : Nat :=
  nearest (units m) (units n)

end Double

end FilterTree
