import FilterTree.Proofs.Rounding

/-!
# Shortest decimals

The search for the shortest decimal finds one for every finite magnitude,
and what it finds is rounded back to the magnitude
(`Double.nearest_shortest`).

That the search succeeds and that its digits are few have one reason. If a
grid has no point in the interval of a magnitude, then the whole interval
lies between two points of the grid and is no longer than its spacing
(`Double.interval_le_of_gridPoint?_eq_none`). So a fine enough grid has a
point, and the grid before the one that has it is still coarse compared with
the interval, which bounds the digits (`Double.significand_shortest_lt`).
-/

namespace FilterTree

namespace Decimal

/-- **The numerator** of a decimal number. -/
def num (d : Decimal) : Nat := d.significand * 10 ^ d.exponent.toNat

/-- **The denominator** of a decimal number. -/
def den (d : Decimal) : Nat := 10 ^ (-d.exponent).toNat

theorem den_pos (d : Decimal) : 0 < d.den := Nat.pow_pos (by decide)

@[simp] theorem num_natCast (s k : Nat) : num ⟨s, (k : Int)⟩ = s * 10 ^ k := rfl

@[simp] theorem den_natCast (s k : Nat) : den ⟨s, (k : Int)⟩ = 1 := by
  simp [den]

end Decimal

/-- **A search through a range** ends with the first index that gives
something, if any does. -/
theorem findSome?_range {α : Type} (f : Nat → Option α) (n : Nat) :
    (∃ i a, (List.range n).findSome? f = some a ∧ f i = some a ∧ ∀ j < i, f j = none)
      ∨ (List.range n).findSome? f = none ∧ ∀ i < n, f i = none := by
  induction n with
  | zero => exact Or.inr ⟨rfl, fun i hi => absurd hi (Nat.not_lt_zero i)⟩
  | succ n ih =>
    rw [List.range_succ, List.findSome?_append]
    rcases ih with ⟨i, a, hfind, hi, hbefore⟩ | ⟨hfind, hnone⟩
    · rw [hfind]
      exact Or.inl ⟨i, a, rfl, hi, hbefore⟩
    · rw [hfind, Option.none_or, List.findSome?_singleton]
      cases hn : f n with
      | some a => exact Or.inl ⟨n, a, rfl, hn, hnone⟩
      | none =>
        refine Or.inr ⟨rfl, fun i hi => ?_⟩
        rcases Nat.lt_succ_iff_lt_or_eq.1 hi with hlt | rfl
        · exact hnone i hlt
        · exact hn

theorem Tie.break_eq_or (tie : Tie) (lower : Nat) :
    tie.break lower = lower ∨ tie.break lower = lower + 1 := by
  cases tie with
  | toEven =>
    rw [Tie.break]
    omega
  | up => exact Or.inr rfl

namespace Double

/-! ## Points of a grid -/

/-- **The spacing of a grid**: its numerator, in half units. -/
def gridStep (e : Int) : Nat := Nat.pow 10 e.toNat <<< 1075

/-- The denominator of the points of a grid. -/
def gridDen (e : Int) : Nat := Nat.pow 10 (-e).toNat

theorem gridStep_pos (e : Int) : 0 < gridStep e := by
  obtain ⟨unit, hpos, hunit⟩ := exists_unit 1075
  unfold gridStep
  rw [hunit]
  exact Nat.mul_pos (Nat.pow_pos (by decide)) hpos

theorem gridDen_pos (e : Int) : 0 < gridDen e := Nat.pow_pos (by decide)

/-- A coarser grid has ten times the spacing. -/
theorem gridStep_succ (e : Int) :
    gridStep (e + 1) * gridDen e = 10 * gridStep e * gridDen (e + 1) := by
  have hexponents : (e + 1).toNat + (-e).toNat = 1 + e.toNat + (-(e + 1)).toNat := by omega
  have hpowers : 10 ^ (e + 1).toNat * 10 ^ (-e).toNat
      = 10 * 10 ^ e.toNat * 10 ^ (-(e + 1)).toNat := by
    rw [← pow_add, hexponents, pow_add, pow_add, pow_one]
  obtain ⟨unit, -, hunit⟩ := exists_unit 1075
  unfold gridStep gridDen
  simp only [Nat.pow_eq, hunit]
  calc 10 ^ (e + 1).toNat * unit * 10 ^ (-e).toNat
      = 10 ^ (e + 1).toNat * 10 ^ (-e).toNat * unit := by ring
    _ = _ := by rw [hpowers]; ring

/-- A point of a grid is a decimal number, in half units. -/
theorem mul_gridStep (s : Nat) (e : Int) :
    s * gridStep e = 2 * (⟨s, e⟩ : Decimal).num <<< 1074 := by
  obtain ⟨unit, -, hunit⟩ := exists_unit 1074
  have hshift : gridStep e = 2 * (Nat.pow 10 e.toNat) <<< 1074 := Nat.shiftLeft_succ _ 1074
  rw [hshift, Decimal.num, hunit, hunit, Nat.pow_eq]
  ring

/-- **The point that is chosen** of a grid singles the magnitude out. -/
theorem singlesOut_of_gridPoint? {tie : Tie} {m s : Nat} {e : Int}
    (h : gridPoint? tie m e = some s) : SinglesOut (s * gridStep e) (gridDen e) m := by
  rw [← singledOut_iff]
  unfold gridPoint? at h
  simp only at h
  generalize 2 * units m * Nat.pow 10 (-e).toNat / Nat.pow 10 e.toNat <<< 1075 = lower at h
  split at h
  · -- both points do, so it does not matter which is chosen
    rename_i hlower hupper
    have hchosen : s = lower ∨ s = lower + 1 := by
      split at h
      · exact Or.inl (Option.some.inj h).symm
      · split at h
        · exact Or.inr (Option.some.inj h).symm
        · rw [← Option.some.inj h]
          exact tie.break_eq_or lower
    rcases hchosen with rfl | rfl
    · exact hlower
    · exact hupper
  · rename_i hlower _
    exact Option.some.inj h ▸ hlower
  · rename_i _ hupper
    exact Option.some.inj h ▸ hupper
  · cases h

/-- **A grid without a point** in the interval of a magnitude has a spacing
of at least the interval's length. -/
theorem interval_le_of_gridPoint?_eq_none {tie : Tie} {m : Nat} {e : Int}
    (h : gridPoint? tie m e = none) :
    intervalHigh m * gridDen e ≤ intervalLow m * gridDen e + gridStep e := by
  obtain ⟨lower, hdef⟩ : ∃ lower, 2 * units m * gridDen e / gridStep e = lower := ⟨_, rfl⟩
  -- the two points around the worth of the magnitude
  have hbelow : lower * gridStep e ≤ 2 * units m * gridDen e :=
    hdef ▸ Nat.div_mul_le_self _ _
  have habove : 2 * units m * gridDen e < (lower + 1) * gridStep e :=
    (Nat.div_lt_iff_lt_mul (gridStep_pos e)).1 (hdef.trans_lt (Nat.lt_succ_self lower))
  have hnone : ¬ SinglesOut (lower * gridStep e) (gridDen e) m
      ∧ ¬ SinglesOut ((lower + 1) * gridStep e) (gridDen e) m := by
    rw [← singledOut_iff, ← singledOut_iff, Bool.not_eq_true, Bool.not_eq_true, ← hdef]
    unfold gridPoint? at h
    simp only at h
    split at h
    · split at h
      · cases h
      · split at h <;> cases h
    · cases h
    · cases h
    · rename_i hlower hupper
      exact ⟨hlower, hupper⟩
  have hlow : intervalLow m * gridDen e ≤ 2 * units m * gridDen e :=
    Nat.mul_le_mul_right _ (intervalLow_le m)
  have hhigh : 2 * units m * gridDen e < intervalHigh m * gridDen e :=
    Nat.mul_lt_mul_of_pos_right (lt_intervalHigh m) (gridDen_pos e)
  have hlower : lower * gridStep e ≤ intervalLow m * gridDen e :=
    Nat.not_lt.1 fun h => hnone.1 (.of_lt h (hbelow.trans_lt hhigh))
  have hupper : intervalHigh m * gridDen e ≤ (lower + 1) * gridStep e :=
    Nat.not_lt.1 fun h => hnone.2 (.of_lt (hlow.trans_lt habove) h)
  rw [Nat.succ_mul] at hupper
  omega

/-! ## The search -/

theorem log2_units_lt {m : Nat} (hpos : 0 < m) (hfinite : m < infinite) :
    (units m).log2 < 2098 := by
  have hne : units m ≠ 0 :=
    Nat.ne_of_gt (Nat.lt_of_le_of_lt (Nat.zero_le _) (units_strictMono hpos))
  obtain ⟨k, r, rfl, hr, hlt⟩ := exists_offset m
  have hk : 53 + k ≤ 2098 := by
    simp only [infinite, binade] at *
    omega
  refine Nat.lt_of_lt_of_le ((Nat.log2_lt hne).2 ?_) hk
  rw [units_offset hr (Nat.le_of_lt hlt), pow_add]
  exact Nat.mul_lt_mul_of_pos_right hlt (Nat.two_pow_pos k)

/-- Multiples of `10 ^ -324` stand so close that one of them singles the
magnitude out. -/
theorem gridPoint?_finest (tie : Tie) {m : Nat} (hpos : 0 < m) :
    gridPoint? tie m (-324) ≠ none := by
  intro h
  have hlong : intervalLow m + 2 ≤ intervalHigh m := by
    have hbelow : units (m - 1) < units m := units_strictMono (by omega)
    have habove : units m < units (m + 1) := units_strictMono (Nat.lt_succ_self m)
    rw [intervalLow, intervalHigh]
    omega
  have hshort := interval_le_of_gridPoint?_eq_none h
  have hspacing : gridStep (-324) < 2 * gridDen (-324) := by decide +kernel
  have hle := Nat.mul_le_mul_right (gridDen (-324)) hlong
  rw [Nat.add_mul] at hle
  omega

/-- **The search succeeds**, on the coarsest grid it tries or on one that is
tried after a grid without a point. -/
theorem exists_shortest_eq (tie : Tie) {m : Nat} (hpos : 0 < m) (hfinite : m < infinite) :
    ∃ s e, shortest tie m = ⟨s, e⟩ ∧ gridPoint? tie m e = some s
      ∧ (e = topExponent m ∨ gridPoint? tie m (e + 1) = none) := by
  have hlog := log2_units_lt hpos hfinite
  have hfinest : topExponent m - ((units m).log2 * 3011 / 10000 + 2 : Nat) = -324 := by
    rw [topExponent]
    omega
  rcases findSome?_range (fun below : Nat => (gridPoint? tie m (topExponent m - below)).map
      fun significand => (⟨significand, topExponent m - below⟩ : Decimal)) 700
    with ⟨below, decimal, hfind, hbelow, hbefore⟩ | ⟨-, hnone⟩
  · obtain ⟨s, hs, rfl⟩ := Option.map_eq_some_iff.1 hbelow
    refine ⟨s, topExponent m - below, ?_, hs, ?_⟩
    · simp only [shortest, hfind, Option.getD_some]
    · cases below with
      | zero => exact Or.inl (Int.sub_zero _)
      | succ before =>
        have hnone := Option.map_eq_none_iff.1 (hbefore before (Nat.lt_succ_self before))
        have hnext : topExponent m - (before + 1 : Nat) + 1 = topExponent m - before := by omega
        exact Or.inr (hnext ▸ hnone)
  · -- the finest grid is among those tried
    have hnone := Option.map_eq_none_iff.1
      (hnone ((units m).log2 * 3011 / 10000 + 2) (by omega))
    rw [hfinest] at hnone
    exact absurd hnone (gridPoint?_finest tie hpos)

/-- **The shortest decimal** of a finite magnitude is rounded back to it. -/
theorem nearest_shortest (tie : Tie) {m : Nat} (hpos : 0 < m) (hfinite : m < infinite) :
    nearest (shortest tie m).num (shortest tie m).den = m := by
  obtain ⟨s, e, hshortest, hpoint, -⟩ := exists_shortest_eq tie hpos hfinite
  rw [hshortest, nearest_eq_iff (Decimal.den_pos _), ← mul_gridStep]
  exact singlesOut_of_gridPoint? hpoint

/-- A positive magnitude has no zero for a shortest decimal. -/
theorem significand_shortest_ne_zero (tie : Tie) {m : Nat} (hpos : 0 < m)
    (hfinite : m < infinite) : (shortest tie m).significand ≠ 0 := by
  intro h
  have hnearest := nearest_shortest tie hpos hfinite
  rw [Decimal.num, h, Nat.zero_mul, nearest_zero] at hnearest
  omega

/-! ## How many digits there are -/

/-- A power of ten with as many places as a power of two has bits, given how
the two compare. -/
theorem two_pow_le_ten_pow {p q : Nat} (hp : 0 < p) (h : 2 ^ p ≤ 10 ^ q) (n : Nat) :
    2 ^ n ≤ 10 ^ (n * q / p + 1) := by
  have hexponents : n * q ≤ (n * q / p + 1) * p :=
    Nat.le_of_lt ((Nat.div_lt_iff_lt_mul hp).1 (Nat.lt_succ_self _))
  rw [← Nat.pow_le_pow_iff_left (Nat.ne_of_gt hp)]
  calc (2 ^ n) ^ p = (2 ^ p) ^ n := Nat.pow_right_comm 2 n p
    _ ≤ (10 ^ q) ^ n := Nat.pow_le_pow_left h n
    _ = 10 ^ (n * q) := by rw [← Nat.pow_mul, Nat.mul_comm]
    _ ≤ 10 ^ ((n * q / p + 1) * p) := Nat.pow_le_pow_right (by decide) hexponents
    _ = _ := Nat.pow_mul 10 _ p

/-- The coarsest grid that is tried has a spacing no shorter than the leading
bit of the magnitude's worth. -/
theorem leading_le_gridStep (m : Nat) :
    2 ^ (units m).log2 * gridDen (topExponent m) ≤ gridStep (topExponent m) := by
  obtain ⟨q, hq⟩ : ∃ q, q = (units m).log2 * 3011 / 10000 := ⟨_, rfl⟩
  obtain ⟨n, hn, hunits⟩ : ∃ n, n = 323 ∧ 10 ^ n ≤ 1 <<< 1075 := ⟨323, rfl, by decide +kernel⟩
  have hexponents : q + 1 + (-topExponent m).toNat = (topExponent m).toNat + n := by
    rw [topExponent, ← hq]
    omega
  have hbits : 2 ^ (units m).log2 ≤ 10 ^ (q + 1) :=
    hq ▸ two_pow_le_ten_pow (by decide) (by decide +kernel) _
  obtain ⟨unit, -, hunit⟩ := exists_unit 1075
  rw [hunit, Nat.one_mul] at hunits
  calc 2 ^ (units m).log2 * gridDen (topExponent m)
      ≤ 10 ^ (q + 1) * 10 ^ (-topExponent m).toNat := Nat.mul_le_mul_right _ hbits
    _ = 10 ^ (topExponent m).toNat * 10 ^ n := by rw [← pow_add, hexponents, pow_add]
    _ ≤ 10 ^ (topExponent m).toNat * unit := Nat.mul_le_mul_left _ hunits
    _ = gridStep (topExponent m) := (hunit _).symm

/-- The interval is long compared with where it lies: an offset in a binade has
53 bits. -/
theorem intervalHigh_le (m : Nat) :
    intervalHigh m + 0x40000000000000 * intervalLow m
      ≤ 0x40000000000000 * intervalHigh m := by
  obtain ⟨k, r, -, hr, hm, hnext⟩ := exists_spacing m
  have hlow := intervalLow_le m
  have hstep : (2 * r + 1) * 2 ^ k ≤ 0x40000000000000 * 2 ^ k :=
    Nat.mul_le_mul_right _ (by simp only [binade] at hr; omega)
  have hhigh : intervalHigh m = 2 * units m + 2 ^ k := by
    rw [intervalHigh, hm, hnext]
    ring
  have hbits : intervalHigh m = (2 * r + 1) * 2 ^ k := by
    rw [hhigh, hm]
    ring
  omega

/-- The interval ends before three times the worth of its magnitude. -/
theorem intervalHigh_le_of_pos {m : Nat} (hpos : 0 < m) : intervalHigh m ≤ 3 * units m := by
  obtain ⟨k, r, -, -, hm, hnext⟩ := exists_spacing m
  have hworth : 0 < r * 2 ^ k := hm ▸ Nat.lt_of_le_of_lt (Nat.zero_le _) (units_strictMono hpos)
  have hr : 2 ^ k ≤ r * 2 ^ k := Nat.le_mul_of_pos_left _ (Nat.pos_of_mul_pos_right hworth)
  rw [intervalHigh, hnext, hm, Nat.add_mul]
  omega

/-- Even on the coarsest grid that is tried the interval ends within a few
points, since the spacing is no shorter than the leading bit. -/
theorem intervalHigh_le_gridStep_top {m : Nat} (hpos : 0 < m) :
    intervalHigh m * gridDen (topExponent m) ≤ 6 * gridStep (topExponent m) := by
  have hbits : units m ≤ 2 * 2 ^ (units m).log2 := by
    have h : units m < 2 ^ ((units m).log2 + 1) := Nat.lt_log2_self
    rw [pow_succ] at h
    omega
  have hhigh : intervalHigh m ≤ 6 * 2 ^ (units m).log2 := by
    have h := intervalHigh_le_of_pos hpos
    omega
  calc intervalHigh m * gridDen (topExponent m)
      ≤ 6 * 2 ^ (units m).log2 * gridDen (topExponent m) := Nat.mul_le_mul_right _ hhigh
    _ = 6 * (2 ^ (units m).log2 * gridDen (topExponent m)) := Nat.mul_assoc _ _ _
    _ ≤ 6 * gridStep (topExponent m) := Nat.mul_le_mul_left _ (leading_le_gridStep m)

/-- On a grid that follows one without a point the spacing is a tenth of what
bounds the interval's length, so the interval ends within so many points as
53 bits and a digit can count. -/
theorem intervalHigh_le_gridStep {tie : Tie} {m : Nat} {e : Int}
    (h : gridPoint? tie m (e + 1) = none) :
    intervalHigh m * gridDen e ≤ 10 * 0x40000000000000 * gridStep e := by
  have hshort := interval_le_of_gridPoint?_eq_none h
  have hlong := Nat.mul_le_mul_right (gridDen (e + 1)) (intervalHigh_le m)
  rw [Nat.add_mul, Nat.mul_assoc, Nat.mul_assoc] at hlong
  have hspacing : intervalHigh m * gridDen (e + 1) ≤ 0x40000000000000 * gridStep (e + 1) := by
    omega
  refine Nat.le_of_mul_le_mul_right ?_ (gridDen_pos (e + 1))
  calc intervalHigh m * gridDen e * gridDen (e + 1)
      = intervalHigh m * gridDen (e + 1) * gridDen e := Nat.mul_right_comm _ _ _
    _ ≤ 0x40000000000000 * gridStep (e + 1) * gridDen e := Nat.mul_le_mul_right _ hspacing
    _ = 0x40000000000000 * (10 * gridStep e * gridDen (e + 1)) := by
      rw [Nat.mul_assoc, gridStep_succ]
    _ = 10 * 0x40000000000000 * gridStep e * gridDen (e + 1) := by ring

/-- **The digits of the shortest decimal** fit a significand of 64 bits. -/
theorem significand_shortest_lt (tie : Tie) {m : Nat} (hpos : 0 < m) (hfinite : m < infinite) :
    (shortest tie m).significand < 0x10000000000000000 := by
  obtain ⟨s, e, hshortest, hpoint, hcoarser⟩ := exists_shortest_eq tie hpos hfinite
  rw [hshortest]
  have hhigh : s * gridStep e ≤ intervalHigh m * gridDen e :=
    (singlesOut_of_gridPoint? hpoint).high
  have hbound : intervalHigh m * gridDen e ≤ 10 * 0x40000000000000 * gridStep e := by
    rcases hcoarser with rfl | hnone
    · have htop := intervalHigh_le_gridStep_top hpos
      omega
    · exact intervalHigh_le_gridStep hnone
  exact Nat.lt_of_le_of_lt
    (Nat.le_of_mul_le_mul_right (hhigh.trans hbound) (gridStep_pos e)) (by decide)

end Double

end FilterTree
