import FilterTree.Proofs.FinitePatterns
import Mathlib.Algebra.Field.Rat
import Mathlib.Algebra.GroupWithZero.Basic
import Mathlib.Algebra.Order.Ring.Rat
import Mathlib.Tactic.Linarith
import Mathlib.Tactic.Ring

/-!
# Binary formats

A floating point number is stored as a pattern of bits with three fields: a
sign, an exponent and a fraction. A **binary format** (`BinaryFormat`) is the
width of the exponent and that of the fraction, and all else follows. Patterns
whose exponent bits are all ones are no finite numbers. The **worth** of any
other one is its significand times a power of two, with the sign, and the
significand is the fraction behind a leading bit that is left out of the
pattern. Only where the exponent is zero there is no leading bit, and the
power is that of the exponent one.

Sign, exponent and fraction make the pattern (`BinaryFormat.eq_of_fields`),
and a greater exponent is worth more whatever the fraction is
(`BinaryFormat.units_lt_of_exponent_lt`). So no two patterns of one sign have
the same worth (`BinaryFormat.eq_of_worth_eq`).

A double is kept as a sign and a magnitude. What the magnitude is worth is
what its pattern is worth in the format with 11 bits for the exponent and 52
for the fraction (`Double.worth_toBits`).
-/

namespace FilterTree

/-- **A binary format** for floating point numbers. -/
structure BinaryFormat where
  /-- How many bits the exponent has. -/
  exponentBits : Nat
  /-- How many bits the fraction has. -/
  fractionBits : Nat

namespace BinaryFormat

/-- The format of 32 bits. -/
def single : BinaryFormat := ⟨8, 23⟩

/-- The format of 64 bits. -/
def double : BinaryFormat := ⟨11, 52⟩

/-- What is taken from the exponent of a pattern to have that of the number. -/
def bias (format : BinaryFormat) : Nat := 2 ^ (format.exponentBits - 1) - 1

variable (format : BinaryFormat) (bits : Nat)

/-- **The sign** of a pattern, its highest bit. -/
def negative : Bool := bits.testBit (format.exponentBits + format.fractionBits)

/-- **The exponent** of a pattern, the bits after the sign. -/
def exponent : Nat := bits / 2 ^ format.fractionBits % 2 ^ format.exponentBits

/-- **The fraction** of a pattern, its lowest bits. -/
def fraction : Nat := bits % 2 ^ format.fractionBits

/-- **An infinity**: all ones in the exponent and no fraction. -/
def IsInfinity : Prop :=
  format.exponent bits = 2 ^ format.exponentBits - 1 ∧ format.fraction bits = 0

/-- **No number**: all ones in the exponent and a fraction. -/
def IsNaN : Prop :=
  format.exponent bits = 2 ^ format.exponentBits - 1 ∧ format.fraction bits ≠ 0

/-- **A finite number**: not all ones in the exponent. -/
def IsFinite : Prop := format.exponent bits ≠ 2 ^ format.exponentBits - 1

instance : Decidable (format.IsInfinity bits) := inferInstanceAs (Decidable (_ ∧ _))

instance : Decidable (format.IsNaN bits) := inferInstanceAs (Decidable (_ ∧ _))

instance : Decidable (format.IsFinite bits) := inferInstanceAs (Decidable (_ ≠ _))

/-- **The significand** of a pattern: its fraction, behind a leading bit unless
the exponent is zero. -/
def significand : Nat :=
  if format.exponent bits = 0 then format.fraction bits
  else 2 ^ format.fractionBits + format.fraction bits

/-- **The worth** of a finite pattern. Where the exponent is zero it counts as
one. -/
def worth : ℚ :=
  (if format.negative bits then -1 else 1) * format.significand bits
    * 2 ^ ((max 1 (format.exponent bits) : ℤ) - format.bias - format.fractionBits)

variable {format : BinaryFormat} {bits other : Nat}

theorem not_isFinite_iff :
    ¬ format.IsFinite bits ↔ format.IsNaN bits ∨ format.IsInfinity bits := by
  unfold IsFinite IsNaN IsInfinity
  tauto

/-! ## Patterns of one worth -/

/-- **The worth in units**, of the least number that is not zero. -/
def units (format : BinaryFormat) (bits : Nat) : Nat :=
  format.significand bits * 2 ^ (max 1 (format.exponent bits) - 1)

/-- What a unit is worth. -/
def unit (format : BinaryFormat) : ℚ := 2 ^ (1 - (format.bias : ℤ) - format.fractionBits)

theorem unit_ne_zero : format.unit ≠ 0 := zpow_ne_zero _ two_ne_zero

/-- **The worth of a pattern** is counted in units. -/
theorem worth_eq (format : BinaryFormat) (bits : Nat) :
    format.worth bits
      = (if format.negative bits then -1 else 1) * (format.units bits * format.unit) := by
  have hscale : (max 1 (format.exponent bits) : ℤ) - format.bias - format.fractionBits
      = (max 1 (format.exponent bits) - 1 : Nat)
        + (1 - (format.bias : ℤ) - format.fractionBits) := by
    omega
  rw [worth, units, unit, hscale, zpow_add₀ two_ne_zero, zpow_natCast]
  push_cast
  ring

/-- **The worth of a magnitude**, which is what a pattern has behind its sign.
Below the exponent one it counts units itself. -/
theorem units_eq (format : BinaryFormat) (bits : Nat) :
    let magnitude := bits % 2 ^ (format.exponentBits + format.fractionBits)
    format.units bits
      = if magnitude < 2 ^ format.fractionBits then magnitude
        else (2 ^ format.fractionBits + magnitude % 2 ^ format.fractionBits)
          * 2 ^ (magnitude / 2 ^ format.fractionBits - 1) := by
  intro magnitude
  have hexponent : format.exponent bits = magnitude / 2 ^ format.fractionBits := by
    rw [exponent, ← Nat.mod_mul_right_div_self, ← pow_add, Nat.add_comm]
  have hfraction : format.fraction bits = magnitude % 2 ^ format.fractionBits :=
    (Nat.mod_mod_of_dvd bits (Nat.pow_dvd_pow 2 (Nat.le_add_left _ _))).symm
  rw [units, significand, hexponent, hfraction]
  split
  · rename_i hzero
    have hlow := (Nat.div_eq_zero_iff_lt (Nat.two_pow_pos _)).1 hzero
    rw [if_pos hlow, hzero, Nat.mod_eq_of_lt hlow, Nat.max_eq_left (Nat.zero_le 1)]
    exact Nat.mul_one _
  · rename_i hpos
    have hhigh := mt (Nat.div_eq_zero_iff_lt (Nat.two_pow_pos _)).2 hpos
    rw [if_neg hhigh, Nat.max_eq_right (Nat.one_le_iff_ne_zero.2 hpos)]

theorem fraction_lt (format : BinaryFormat) (bits : Nat) :
    format.fraction bits < 2 ^ format.fractionBits :=
  Nat.mod_lt _ (Nat.two_pow_pos _)

/-- **A greater exponent is worth more**, whatever the fractions are. -/
theorem units_lt_of_exponent_lt (h : format.exponent bits < format.exponent other) :
    format.units bits < format.units other := by
  have hfraction := format.fraction_lt bits
  have hother : format.significand other = 2 ^ format.fractionBits + format.fraction other :=
    if_neg (Nat.ne_of_gt (Nat.zero_lt_of_lt h))
  calc format.units bits
      < 2 ^ format.fractionBits * 2 ^ format.exponent bits := by
        unfold units significand
        split
        · rename_i hzero
          simpa [hzero] using hfraction
        · rename_i hzero
          have hmax : max 1 (format.exponent bits) - 1 + 1 = format.exponent bits := by omega
          rw [← hmax, pow_succ', ← Nat.mul_assoc, hmax]
          exact Nat.mul_lt_mul_of_pos_right (by omega) (Nat.two_pow_pos _)
    _ ≤ 2 ^ format.fractionBits * 2 ^ (max 1 (format.exponent other) - 1) :=
        Nat.mul_le_mul_left _ (Nat.pow_le_pow_right (by decide) (by omega))
    _ ≤ format.units other := by
        rw [units, hother]
        exact Nat.mul_le_mul_right _ (Nat.le_add_right _ _)

/-- **The fields that make the worth**, by the worth. -/
theorem exponent_eq_and_fraction_eq (h : format.units bits = format.units other) :
    format.exponent bits = format.exponent other
      ∧ format.fraction bits = format.fraction other := by
  have hexponent : format.exponent bits = format.exponent other := by
    rcases Nat.lt_trichotomy (format.exponent bits) (format.exponent other) with hlt | heq | hgt
    · exact absurd h (Nat.ne_of_lt (units_lt_of_exponent_lt hlt))
    · exact heq
    · exact absurd h (Nat.ne_of_gt (units_lt_of_exponent_lt hgt))
  refine ⟨hexponent, ?_⟩
  rw [units, units, hexponent] at h
  have hsignificand := Nat.eq_of_mul_eq_mul_right (Nat.two_pow_pos _) h
  rw [significand, significand, hexponent] at hsignificand
  split at hsignificand
  · exact hsignificand
  · exact Nat.add_left_cancel hsignificand

/-- **The fields make the pattern**, if it is no longer than the format. -/
theorem eq_of_fields (hbits : bits < 2 ^ (format.exponentBits + format.fractionBits + 1))
    (hother : other < 2 ^ (format.exponentBits + format.fractionBits + 1))
    (hnegative : format.negative bits = format.negative other)
    (hexponent : format.exponent bits = format.exponent other)
    (hfraction : format.fraction bits = format.fraction other) : bits = other := by
  refine Nat.eq_of_testBit_eq fun i => ?_
  rcases Nat.lt_trichotomy i (format.exponentBits + format.fractionBits) with hlow | rfl | hhigh
  · by_cases hi : i < format.fractionBits
    · have hbit := congrArg (Nat.testBit · i) hfraction
      simpa [fraction, Nat.testBit_mod_two_pow, hi] using hbit
    · have hbit := congrArg (Nat.testBit · (i - format.fractionBits)) hexponent
      have hplace : i - format.fractionBits + format.fractionBits = i := by omega
      have hinside : i - format.fractionBits < format.exponentBits := by omega
      simpa [exponent, Nat.testBit_mod_two_pow, Nat.testBit_div_two_pow, hplace, hinside] using hbit
  · exact hnegative
  · have hbound := Nat.pow_le_pow_right (n := 2) (by decide) (Nat.succ_le_of_lt hhigh)
    rw [Nat.testBit_lt_two_pow (Nat.lt_of_lt_of_le hbits hbound),
      Nat.testBit_lt_two_pow (Nat.lt_of_lt_of_le hother hbound)]

/-- **No two patterns of one sign have the same worth.** -/
theorem eq_of_worth_eq (hbits : bits < 2 ^ (format.exponentBits + format.fractionBits + 1))
    (hother : other < 2 ^ (format.exponentBits + format.fractionBits + 1))
    (hnegative : format.negative bits = format.negative other)
    (hworth : format.worth bits = format.worth other) : bits = other := by
  have hunits : (format.units bits : ℚ) = format.units other := by
    rw [worth_eq, worth_eq, hnegative] at hworth
    refine mul_right_cancel₀ unit_ne_zero (mul_left_cancel₀ ?_ hworth)
    split <;> norm_num
  obtain ⟨hexponent, hfraction⟩ := exponent_eq_and_fraction_eq (Nat.cast_injective hunits)
  exact eq_of_fields hbits hother hnegative hexponent hfraction

end BinaryFormat

/-! ## The pattern of a double -/

namespace Double

open BinaryFormat

/-- **The sign of a double** is that of its pattern. -/
theorem negative_toBits (x : Double) : double.negative x.toBits.toNat = x.negative := by
  have hsize : x.magnitude < 2 ^ 63 := Nat.lt_trans x.magnitude_lt (by decide)
  show x.toBits.toNat.testBit 63 = x.negative
  rw [toNat_toBits]
  cases x.negative with
  | false =>
    rw [if_neg Bool.false_ne_true, Nat.zero_add]
    exact Nat.testBit_lt_two_pow hsize
  | true =>
    rw [if_pos rfl]
    exact (Nat.testBit_two_pow_add_eq x.magnitude 63).trans
      (congrArg not (Nat.testBit_lt_two_pow hsize))

/-- **A magnitude is worth** what the pattern is worth that has it behind its
sign. -/
theorem units_double (bits : Nat) : double.units bits = units (bits % 0x8000000000000000) := by
  rw [BinaryFormat.units_eq, units, Nat.shiftLeft_eq]
  rfl

/-- **A double is worth** what its pattern is worth. -/
theorem worth_toBits (x : Double) :
    double.worth x.toBits.toNat
      = (if x.negative then -1 else 1) * (units x.magnitude * double.unit) := by
  have hmagnitude : x.toBits.toNat % 0x8000000000000000 = x.magnitude := by
    have hfinite := x.magnitude_lt
    rw [toNat_toBits]
    simp only [infinite, binade] at hfinite
    split <;> omega
  rw [worth_eq, negative_toBits, units_double, hmagnitude]

end Double

end FilterTree
