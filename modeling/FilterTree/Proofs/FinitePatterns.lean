import FilterTree.Value.Operand
import Mathlib.Logic.Basic

/-!
# Patterns of finite numbers

A pattern of 64 bits is read as a double unless its exponent bits are all
ones, and one of 32 bits likewise (`Double.exists_ofBits?_eq_some_iff`,
`Double.ofSingleBits?_eq_none_iff`). Every double is the reading of such a
pattern, which is its own (`Double.ofBits?_toBits`). So an operand has a value
unless it is a number that is not finite (`Operand.toValue?_eq_none_iff`).
-/

namespace FilterTree

namespace Double

/-- **A finite pattern** of the format: not all of its 11 exponent bits are
ones. -/
def IsFinitePattern (bits : UInt64) : Prop := bits.toNat / binade % 2048 ≠ 2047

/-- **The finite patterns have readings**, and no others do. -/
theorem exists_ofBits?_eq_some_iff {bits : UInt64} :
    (∃ x, ofBits? bits = some x) ↔ IsFinitePattern bits := by
  have hbits := bits.toNat_lt
  have hfields : bits.toNat % 0x8000000000000000 < infinite
      ↔ bits.toNat / binade % 2048 ≠ 2047 := by
    simp only [infinite, binade]
    omega
  unfold ofBits? ofMagnitude? IsFinitePattern
  rw [← hfields]
  split
  · rename_i h
    exact iff_of_true ⟨_, rfl⟩ h
  · rename_i h
    exact iff_of_false (fun ⟨x, hx⟩ => absurd hx nofun) h

/-- **The pattern of a double.** -/
def toBits (x : Double) : UInt64 :=
  UInt64.ofNat ((if x.negative then 0x8000000000000000 else 0) + x.magnitude)

@[simp] theorem toNat_toBits (x : Double) :
    x.toBits.toNat = (if x.negative then 0x8000000000000000 else 0) + x.magnitude := by
  have hfinite := x.magnitude_lt
  rw [toBits, UInt64.toNat_ofNat']
  simp only [infinite, binade] at hfinite
  split <;> omega

/-- **A double is read from its pattern.** -/
@[simp] theorem ofBits?_toBits (x : Double) : ofBits? x.toBits = some x := by
  obtain ⟨negative, magnitude, hfinite⟩ := x
  have hsize : magnitude < 0x8000000000000000 := Nat.lt_trans hfinite (by decide)
  unfold ofBits? ofMagnitude?
  rw [toNat_toBits]
  cases negative with
  | false =>
    simp only [Bool.false_eq_true, if_false, Nat.zero_add, Nat.mod_eq_of_lt hsize,
      dif_pos hfinite, Nat.not_le.2 hsize, decide_false]
  | true =>
    simp only [if_true, Nat.add_mod_left, Nat.mod_eq_of_lt hsize, dif_pos hfinite,
      Nat.le_add_right, decide_true]

/-- **Doubles have different patterns.** -/
theorem toBits_injective : Function.Injective toBits := by
  intro x y h
  refine Option.some.inj ?_
  rw [← ofBits?_toBits x, ← ofBits?_toBits y, h]

/-- **Every double is the reading of a finite pattern.** -/
theorem exists_isFinitePattern_ofBits? (x : Double) :
    ∃ bits, IsFinitePattern bits ∧ ofBits? bits = some x :=
  ⟨x.toBits, exists_ofBits?_eq_some_iff.1 ⟨x, x.ofBits?_toBits⟩, x.ofBits?_toBits⟩

/-- **Widening keeps what is finite.** -/
theorem widen_lt_infinite {magnitude : Nat} (h : magnitude < 255 * singleBinade) :
    widen magnitude < infinite := by
  unfold widen
  split
  · decide
  · rename_i hzero
    split
    · rename_i hsmall
      have hlog : magnitude.log2 < 23 := (Nat.log2_lt hzero).2 hsmall
      have hbits : magnitude < 2 ^ (magnitude.log2 + 1) := Nat.lt_log2_self
      have hshift : magnitude <<< (52 - magnitude.log2) < 2 ^ 53 := by
        rw [Nat.shiftLeft_eq]
        calc magnitude * 2 ^ (52 - magnitude.log2)
            < 2 ^ (magnitude.log2 + 1) * 2 ^ (52 - magnitude.log2) :=
              Nat.mul_lt_mul_of_pos_right hbits (Nat.two_pow_pos _)
          _ = 2 ^ 53 := by
            rw [← Nat.pow_add]
            congr 1
            omega
      simp only [infinite, binade]
      omega
    · rw [Nat.shiftLeft_eq]
      simp only [infinite, binade, singleBinade] at *
      omega

/-- **The singles that have no reading** are those whose 8 exponent bits are
all ones. -/
theorem ofSingleBits?_eq_none_iff {bits : UInt32} :
    ofSingleBits? bits = none ↔ bits.toNat / singleBinade % 256 = 255 := by
  have hbits := bits.toNat_lt
  have hfields : bits.toNat % 0x80000000 < 255 * singleBinade
      ↔ bits.toNat / singleBinade % 256 ≠ 255 := by
    simp only [singleBinade]
    omega
  unfold ofSingleBits? ofMagnitude?
  simp only
  split
  · rename_i h
    rw [dif_pos (widen_lt_infinite h)]
    exact iff_of_false nofun (hfields.1 h)
  · rename_i h
    exact iff_of_true rfl (not_not.1 fun hne => h (hfields.2 hne))

end Double

/-! ## Operands -/

/-- **An operand that is not finite**: the pattern of a number whose exponent
bits are all ones. -/
def Operand.IsNotFinite : Operand → Prop
  | .double bits => ¬ Double.IsFinitePattern bits
  | .single bits => bits.toNat / Double.singleBinade % 256 = 255
  | .present operand => operand.IsNotFinite
  | _ => False

/-- **The operands without a value** are those that are not finite. -/
theorem Operand.toValue?_eq_none_iff {operand : Operand} :
    operand.toValue? = none ↔ operand.IsNotFinite := by
  induction operand with
  | double bits =>
    rw [toValue?, Option.map_eq_none_iff, IsNotFinite, ← Double.exists_ofBits?_eq_some_iff,
      Option.eq_none_iff_forall_ne_some]
    exact not_exists.symm
  | single bits => rw [toValue?, Option.map_eq_none_iff, IsNotFinite,
      Double.ofSingleBits?_eq_none_iff]
  | present operand ih => exact ih
  | _ => exact iff_of_false nofun id

end FilterTree
