import FilterTree.Double.Basic

/-!
# Widening singles

A number of the binary32 format is widened to a double without loss. The
low 31 bits count the non-negative singles as `Double` counts doubles, in
binades of `2 ^ 23`. Away from the subnormals widening multiplies the
position by `2 ^ 29` and moves it up by the 896 binades that the wider
exponent range puts below. A subnormal single is a normal double, so its
leading bit moves to where the binade starts.
-/

namespace FilterTree.Double

/-- The size of a binade of singles, `2 ^ 23` magnitudes. -/
abbrev singleBinade : Nat := 0x800000

/-- **Widening a magnitude**: the double worth what the single of that
magnitude is worth. -/
def widen (magnitude : Nat) : Nat :=
  if magnitude = 0 then 0
  else if magnitude < singleBinade then
    (magnitude.log2 + 873) * binade + magnitude <<< (52 - magnitude.log2)
  else (magnitude + 896 * singleBinade) <<< 29

/-- **Reading a single**: the double equal to the number of a 32-bit
pattern, or `none` if the exponent bits are all ones. -/
def ofSingleBits? (bits : UInt32) : Option Double :=
  let magnitude := bits.toNat % 0x80000000
  if magnitude < 255 * singleBinade then
    ofMagnitude? (0x80000000 ≤ bits.toNat) (widen magnitude)
  else none

end FilterTree.Double
