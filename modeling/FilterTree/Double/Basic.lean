/-!
# Finite doubles

The floating point numbers a filter compares against are the **finite**
numbers of the binary64 format: a sign, and a magnitude that counts the
non-negative doubles in ascending order. Counting them is reading the low
63 bits of the format as one number. The first `2 ^ 52` magnitudes are the
subnormals, evenly spaced from zero; after them every further `2 ^ 52`
magnitudes form a **binade** whose spacing is twice that of the one before.
The magnitude `2047 * 2 ^ 52` would be the infinity, and everything above
it a pattern that is no number, so the bound in the type is finiteness.

`Double.units` says what a magnitude is worth. Every finite double is a
whole number of units of `2 ^ -1074`, the smallest subnormal, so the worth
is a natural number and all that follows about rounding and digits is
arithmetic on natural numbers.

Two doubles are equal as data when sign and magnitude agree, which tells
the two zeros apart. `Double.same` is the numeric equality, which does not.
-/

namespace FilterTree

/-- **The size of a binade**, `2 ^ 52` magnitudes. -/
abbrev Double.binade : Nat := 0x10000000000000

/-- **The magnitude of the infinity**, one above the largest finite one. -/
abbrev Double.infinite : Nat := 2047 * Double.binade

/-- **A finite double**: a sign and a position among the non-negative
doubles. -/
structure Double where
  /-- Whether the sign bit is set; the two zeros differ here only. -/
  negative : Bool
  /-- The position of the absolute value, counting up from zero. -/
  magnitude : Nat
  /-- Below the infinity. -/
  magnitude_lt : magnitude < Double.infinite
deriving DecidableEq, Repr

namespace Double

/-- The double of a sign and a magnitude, unless the magnitude is that of
the infinity or beyond. -/
def ofMagnitude? (negative : Bool) (magnitude : Nat) : Option Double :=
  if h : magnitude < infinite then some ⟨negative, magnitude, h⟩ else none

/-- **Reading the format**: the top bit is the sign and the other 63 are
the magnitude. Infinities and patterns that are no number give `none`. -/
def ofBits? (bits : UInt64) : Option Double :=
  ofMagnitude? (0x8000000000000000 ≤ bits.toNat) (bits.toNat % 0x8000000000000000)

/-- The zero without a sign, which a double starts from. -/
def zero : Double := ⟨false, 0, by decide⟩

instance : Inhabited Double := ⟨zero⟩

/-- **The worth of a magnitude** in units of `2 ^ -1074`. A subnormal is
worth its position; in a later binade the position within it, with the
leading bit put back, is scaled by the binade's spacing. -/
def units (magnitude : Nat) : Nat :=
  if magnitude < binade then magnitude
  else (binade + magnitude % binade) <<< (magnitude / binade - 1)

/-- **Numeric equality**: the same double, or two zeros of any sign. -/
def same (x y : Double) : Bool :=
  x == y || (x.magnitude == 0 && y.magnitude == 0)

end Double

end FilterTree
