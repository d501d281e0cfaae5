import FilterTree.Double.Rounding
import FilterTree.Double.Shortest
import Mathlib.Tactic.Ring

/-!
# Rounding and singling out

Rounding a quotient gives a magnitude, and a magnitude is singled out by the
quotients that round to it. These are two definitions of one relation, the
first by a division and the second by an interval, and the main statement is
that they agree (`Double.nearest_eq_iff`).

The division is right because magnitudes are evenly spaced within a binade
(`Double.units_offset`), so that rounding a quotient of units to a multiple
of the spacing is rounding to an integer. The interval is right because the
intervals of two magnitudes meet in one point at most, which belongs to the
even one of the two (`Double.SinglesOut.unique`).
-/

namespace FilterTree

/-! ## Rounding to an integer -/

theorem roundHalfEven_eq_or (num den : Nat) :
    roundHalfEven num den = num / den ∨ roundHalfEven num den = num / den + 1 := by
  simp only [roundHalfEven]
  have hparity := Nat.mod_two_eq_zero_or_one (num / den)
  split
  · exact Or.inl rfl
  · split
    · exact Or.inr rfl
    · omega

/-- **The integer that a quotient is rounded to** is at most one half off,
and it is even if it is one half off. -/
theorem roundHalfEven_spec (num : Nat) {den : Nat} (hden : 0 < den) :
    2 * (roundHalfEven num den * den) ≤ 2 * num + den
      ∧ 2 * num ≤ 2 * (roundHalfEven num den * den) + den
      ∧ (roundHalfEven num den % 2 = 1 →
        2 * (roundHalfEven num den * den) ≠ 2 * num + den
          ∧ 2 * num ≠ 2 * (roundHalfEven num den * den) + den) := by
  have hsplit : num / den * den + num % den = num := Nat.div_add_mod' num den
  have hrest : num % den < den := Nat.mod_lt num hden
  simp only [roundHalfEven]
  generalize num / den = floor at *
  generalize num % den = rest at *
  split
  · omega
  · split
    · rw [Nat.add_mul, Nat.one_mul]
      omega
    · -- exactly between the two, the even one is taken
      rcases Nat.mod_two_eq_zero_or_one floor with heven | hodd
      · rw [heven, Nat.add_zero]
        omega
      · rw [hodd, Nat.add_mul, Nat.one_mul]
        omega

namespace Double

/-! ## The spacing of magnitudes -/

/-- **Within a binade** the magnitudes are evenly spaced. The first
magnitude of the next binade is one step further. -/
theorem units_offset {k r : Nat} (hr : k = 0 ∨ binade ≤ r) (h : r ≤ 2 * binade) :
    units (k * binade + r) = r * 2 ^ k := by
  simp only [units, binade, Nat.shiftLeft_eq] at *
  rcases Nat.lt_or_ge r 0x10000000000000 with hlow | hhigh
  · -- a subnormal
    obtain rfl : k = 0 := by omega
    rw [if_pos (by omega)]
    simp
  · rw [if_neg (by omega)]
    rcases Nat.lt_or_eq_of_le h with hlt | rfl
    · have hdiv : (k * 0x10000000000000 + r) / 0x10000000000000 - 1 = k := by omega
      have hmod : 0x10000000000000 + (k * 0x10000000000000 + r) % 0x10000000000000 = r := by omega
      rw [hdiv, hmod]
    · -- the next binade starts here
      have hdiv : (k * 0x10000000000000 + 2 * 0x10000000000000) / 0x10000000000000 - 1 = k + 1 := by
        omega
      have hmod : 0x10000000000000 + (k * 0x10000000000000 + 2 * 0x10000000000000)
          % 0x10000000000000 = 0x10000000000000 := by
        omega
      rw [hdiv, hmod, pow_succ]
      ring

/-- Every magnitude is an offset in a binade or a subnormal. -/
theorem exists_offset (m : Nat) :
    ∃ k r, m = k * binade + r ∧ (k = 0 ∨ binade ≤ r) ∧ r < 2 * binade := by
  by_cases h : m < binade
  · exact ⟨0, m, by omega, Or.inl rfl, by omega⟩
  · simp only [binade] at *
    exact ⟨m / 0x10000000000000 - 1, 0x10000000000000 + m % 0x10000000000000, by omega,
      Or.inr (by omega), by omega⟩

/-- **A magnitude and the next one** are one step of the spacing apart. -/
theorem exists_spacing (m : Nat) :
    ∃ k r, m = k * binade + r ∧ r < 2 * binade ∧ units m = r * 2 ^ k
      ∧ units (m + 1) = (r + 1) * 2 ^ k := by
  obtain ⟨k, r, rfl, hr, hlt⟩ := exists_offset m
  refine ⟨k, r, rfl, hlt, units_offset hr (Nat.le_of_lt hlt), ?_⟩
  rw [Nat.add_assoc]
  exact units_offset (hr.imp_right Nat.le_succ_of_le) hlt

/-- **Greater magnitudes are worth more.** -/
theorem units_strictMono : StrictMono units := by
  refine strictMono_nat_of_lt_succ fun m => ?_
  obtain ⟨k, r, -, -, hm, hnext⟩ := exists_spacing m
  rw [hm, hnext, Nat.add_mul, Nat.one_mul]
  exact Nat.lt_add_of_pos_right (Nat.two_pow_pos k)

theorem units_pred_le (m : Nat) : units (m - 1) ≤ units m :=
  units_strictMono.monotone (Nat.sub_le m 1)

/-- **The intervals are in order**: where that of a greater magnitude begins,
that of a smaller one has ended. -/
theorem intervalHigh_le_intervalLow {m n : Nat} (h : m < n) : intervalHigh m ≤ intervalLow n :=
  Nat.add_le_add (units_strictMono.monotone (by omega)) (units_strictMono.monotone h)

/-- Only the intervals of neighbours meet. -/
theorem intervalHigh_lt_intervalLow {m n : Nat} (h : m + 1 < n) :
    intervalHigh m < intervalLow n :=
  Nat.add_lt_add (units_strictMono (by omega)) (units_strictMono h)

theorem intervalLow_le (m : Nat) : intervalLow m ≤ 2 * units m :=
  (Nat.add_le_add_right (units_pred_le m) _).trans_eq (Nat.two_mul _).symm

theorem lt_intervalHigh (m : Nat) : 2 * units m < intervalHigh m :=
  (Nat.two_mul _).trans_lt (Nat.add_lt_add_left (units_strictMono (Nat.lt_succ_self m)) _)

/-! ## Singling out -/

/-- **A quotient of half units that singles out a magnitude**: it lies in the
interval of the magnitude, and within it if the magnitude is odd. -/
structure SinglesOut (num den magnitude : Nat) : Prop where
  /-- Not below the interval. -/
  low : intervalLow magnitude * den ≤ num
  /-- Not above the interval. -/
  high : num ≤ intervalHigh magnitude * den
  /-- At no end of the interval of an odd magnitude. -/
  inside : magnitude % 2 = 1 →
    intervalLow magnitude * den < num ∧ num < intervalHigh magnitude * den

theorem singledOut_iff {magnitude num den : Nat} :
    singledOut magnitude num den = true ↔ SinglesOut num den magnitude := by
  unfold singledOut
  split
  · rename_i heven
    rw [Bool.and_eq_true, decide_eq_true_eq, decide_eq_true_eq]
    exact ⟨fun ⟨hlow, hhigh⟩ => ⟨hlow, hhigh, fun hodd => by omega⟩, fun h => ⟨h.low, h.high⟩⟩
  · rename_i hodd
    rw [Bool.and_eq_true, decide_eq_true_eq, decide_eq_true_eq]
    exact ⟨fun ⟨hlow, hhigh⟩ => ⟨hlow.le, hhigh.le, fun _ => ⟨hlow, hhigh⟩⟩,
      fun h => h.inside (by omega)⟩

namespace SinglesOut

variable {num den num' den' m n : Nat}

/-- What lies within the interval singles the magnitude out. -/
theorem of_lt (hlow : intervalLow m * den < num) (hhigh : num < intervalHigh m * den) :
    SinglesOut num den m :=
  ⟨hlow.le, hhigh.le, fun _ => ⟨hlow, hhigh⟩⟩

/-- **Equal quotients** single out the same magnitudes. -/
theorem congr (h : SinglesOut num den m) (hden : 0 < den) (hden' : 0 < den')
    (heq : num * den' = num' * den) : SinglesOut num' den' m := by
  -- a comparison with one quotient is a comparison with the other
  have hle : ∀ a, a * den ≤ num ↔ a * den' ≤ num' := fun a => by
    rw [← Nat.mul_le_mul_right_iff hden', heq, Nat.mul_right_comm, Nat.mul_le_mul_right_iff hden]
  have hge : ∀ a, num ≤ a * den ↔ num' ≤ a * den' := fun a => by
    rw [← Nat.mul_le_mul_right_iff hden', heq, Nat.mul_right_comm, Nat.mul_le_mul_right_iff hden]
  refine ⟨(hle _).1 h.low, (hge _).1 h.high, fun hodd => ?_⟩
  obtain ⟨hlow, hhigh⟩ := h.inside hodd
  exact ⟨Nat.not_le.1 fun h => Nat.not_le.2 hlow ((hge _).2 h),
    Nat.not_le.1 fun h => Nat.not_le.2 hhigh ((hle _).2 h)⟩

/-- A quotient does not single out a magnitude and a greater one. -/
theorem not_lt (hden : 0 < den) (hm : SinglesOut num den m) (hn : SinglesOut num den n) :
    ¬ m < n := by
  intro hlt
  -- the quotient is where the one interval ends and the other begins
  have hle : intervalLow n ≤ intervalHigh m :=
    Nat.le_of_mul_le_mul_right (hn.low.trans hm.high) hden
  have heq : intervalHigh m = intervalLow n :=
    (intervalHigh_le_intervalLow hlt).antisymm hle
  have hnext : n = m + 1 := by
    by_contra hne
    exact (intervalHigh_lt_intervalLow (by omega : m + 1 < n)).ne heq
  have hend : num = intervalHigh m * den := hm.high.antisymm (heq ▸ hn.low)
  rcases Nat.mod_two_eq_zero_or_one m with heven | hodd
  · exact (hn.inside (by omega)).1.ne (heq ▸ hend.symm)
  · exact (hm.inside hodd).2.ne hend

/-- **A quotient singles out one magnitude** at most. -/
theorem unique (hden : 0 < den) (hm : SinglesOut num den m) (hn : SinglesOut num den n) :
    m = n :=
  Nat.le_antisymm (Nat.not_lt.1 (hn.not_lt hden hm)) (Nat.not_lt.1 (hm.not_lt hden hn))

end SinglesOut

/-! ## Rounding to a magnitude -/

theorem exists_unit (k : Nat) : ∃ unit, 0 < unit ∧ ∀ n : Nat, n <<< k = n * unit :=
  ⟨2 ^ k, Nat.two_pow_pos k, fun n => Nat.shiftLeft_eq n k⟩

/-- **A rounded quotient** is an offset in the binade that the quotient lies
in, namely the quotient rounded to a multiple of the spacing there. -/
theorem exists_nearest_eq (num den : Nat) :
    ∃ k r, nearest num den = k * binade + r ∧ r = roundHalfEven (num <<< 1074) (den * 2 ^ k)
      ∧ r ≤ 2 * binade ∧ (k = 0 ∨ binade ≤ r ∧ binade * 2 ^ k * den ≤ num <<< 1074) := by
  obtain ⟨k, hk⟩ : ∃ k, k = (num <<< 1074 / den).log2 - 52 := ⟨_, rfl⟩
  have hfloor : num <<< 1074 / (den * 2 ^ k) = num <<< 1074 / den / 2 ^ k :=
    (Nat.div_div_eq_div_mul _ _ _).symm
  refine ⟨k, _, ?_, rfl, ?_, ?_⟩
  · rw [hk, nearest, Nat.shiftLeft_eq den]
  · -- the quotient has at most 53 bits before the point of the spacing
    have hbits : num <<< 1074 / den < 2 ^ (53 + k) :=
      Nat.lt_of_lt_of_le Nat.lt_log2_self (Nat.pow_le_pow_right (by decide) (by omega))
    rw [pow_add, ← Nat.div_lt_iff_lt_mul (Nat.two_pow_pos k), ← hfloor] at hbits
    have hbinade : 2 * binade = 2 ^ 53 := rfl
    rcases roundHalfEven_eq_or (num <<< 1074) (den * 2 ^ k) with h | h <;> omega
  · rcases Nat.eq_zero_or_pos k with hzero | hpos
    · exact Or.inl hzero
    · -- beyond the first binade it has all of them
      have hlog : (num <<< 1074 / den).log2 = 52 + k := by omega
      have hne : num <<< 1074 / den ≠ 0 := by
        intro h
        rw [h] at hlog
        exact absurd hlog (by simp; omega)
      have hbits : binade * 2 ^ k ≤ num <<< 1074 / den := by
        have h := Nat.log2_self_le hne
        rwa [hlog, pow_add] at h
      refine Or.inr ⟨?_, Nat.mul_le_of_le_div _ _ _ hbits⟩
      rw [← Nat.le_div_iff_mul_le (Nat.two_pow_pos k), ← hfloor] at hbits
      rcases roundHalfEven_eq_or (num <<< 1074) (den * 2 ^ k) with h | h <;> omega

/-- The interval reaches half a step up at least. -/
theorem le_intervalHigh_offset {k r : Nat} (hr : k = 0 ∨ binade ≤ r) (h : r ≤ 2 * binade) :
    2 * (r * 2 ^ k) + 2 ^ k ≤ intervalHigh (k * binade + r) := by
  rw [intervalHigh, units_offset hr h]
  rcases Nat.lt_or_eq_of_le h with hlt | rfl
  · have hnext : units (k * binade + (r + 1)) = r * 2 ^ k + 2 ^ k :=
      (units_offset (hr.imp_right Nat.le_succ_of_le) hlt).trans (Nat.succ_mul r _)
    rw [Nat.add_assoc, hnext]
    omega
  · -- the next step is one of the next binade
    have hnext : k * binade + 2 * binade + 1 = (k + 1) * binade + (binade + 1) := by
      simp only [binade]
      omega
    rw [hnext, units_offset (Or.inr (Nat.le_succ _)) (by decide), pow_succ]
    simp only [binade]
    omega

/-- The interval reaches half a step down, except where a binade starts. -/
theorem intervalLow_offset {k r : Nat} (hr : k = 0 ∨ binade < r) (hpos : 0 < r)
    (h : r ≤ 2 * binade) : intervalLow (k * binade + r) + 2 ^ k = 2 * (r * 2 ^ k) := by
  obtain ⟨q, rfl⟩ : ∃ q, r = q + 1 := ⟨r - 1, by omega⟩
  have hpred : k * binade + (q + 1) - 1 = k * binade + q := by omega
  rw [intervalLow, hpred, units_offset (hr.imp_right Nat.le_of_lt_succ) (by omega),
    units_offset (hr.imp_right Nat.le_of_lt) h, Nat.add_mul]
  omega

/-- **A quotient singles out** the magnitude it is rounded to. -/
theorem singlesOut_nearest (num : Nat) {den : Nat} (hden : 0 < den) :
    SinglesOut (2 * num <<< 1074) den (nearest num den) := by
  obtain ⟨k, r, hm, hround, hr, hstart⟩ := exists_nearest_eq num den
  obtain ⟨hbelow, habove, hodd⟩ := roundHalfEven_spec (num <<< 1074)
    (Nat.mul_pos hden (Nat.two_pow_pos k))
  rw [← hround] at hbelow habove hodd
  have hoffset : k = 0 ∨ binade ≤ r := hstart.imp_right And.left
  have hparity : (k * binade + r) % 2 = r % 2 := by
    simp only [binade]
    omega
  have hstep : r * (den * 2 ^ k) = r * 2 ^ k * den := by ring
  have hhigh : 2 * (r * 2 ^ k * den) + den * 2 ^ k ≤ intervalHigh (k * binade + r) * den := by
    calc 2 * (r * 2 ^ k * den) + den * 2 ^ k = (2 * (r * 2 ^ k) + 2 ^ k) * den := by ring
      _ ≤ _ := Nat.mul_le_mul_right den (le_intervalHigh_offset hoffset hr)
  rw [hstep] at hbelow habove hodd
  rw [hm]
  by_cases hcase : (k = 0 ∨ binade < r) ∧ 0 < r
  · have hlow : intervalLow (k * binade + r) * den + den * 2 ^ k = 2 * (r * 2 ^ k * den) := by
      calc intervalLow (k * binade + r) * den + den * 2 ^ k
          = (intervalLow (k * binade + r) + 2 ^ k) * den := by ring
        _ = _ := by rw [intervalLow_offset hcase.1 hcase.2 hr]; ring
    refine ⟨by omega, by omega, fun h => ?_⟩
    have hne := hodd (hparity ▸ h)
    omega
  · -- the first magnitude of a binade is even, and not above the quotient
    have heven : r % 2 = 0 := by
      simp only [binade] at *
      omega
    have hle : r * 2 ^ k * den ≤ num <<< 1074 := by
      rcases Nat.eq_zero_or_pos r with rfl | hpos
      · simp
      · obtain ⟨hk, rfl⟩ : k ≠ 0 ∧ r = binade := by omega
        exact (hstart.resolve_left hk).2
    have hlow : intervalLow (k * binade + r) * den ≤ 2 * (r * 2 ^ k * den) := by
      rw [← Nat.mul_assoc]
      refine Nat.mul_le_mul_right den ?_
      rw [← units_offset hoffset hr]
      exact intervalLow_le _
    exact ⟨by omega, by omega, fun h => by omega⟩

/-- **Rounding and singling out agree**: a quotient is rounded to the one
magnitude that it singles out. -/
theorem nearest_eq_iff {num den m : Nat} (hden : 0 < den) :
    nearest num den = m ↔ SinglesOut (2 * num <<< 1074) den m := by
  constructor
  · rintro rfl
    exact singlesOut_nearest num hden
  · exact (singlesOut_nearest num hden).unique hden

/-- **Equal quotients** are rounded to the same magnitude. -/
theorem nearest_congr {num den num' den' : Nat} (hden : 0 < den) (hden' : 0 < den')
    (h : num * den' = num' * den) : nearest num den = nearest num' den' := by
  refine (nearest_eq_iff hden).2 ((singlesOut_nearest num' hden').congr hden' hden ?_)
  obtain ⟨unit, -, hunit⟩ := exists_unit 1074
  rw [hunit, hunit]
  calc 2 * (num' * unit) * den = 2 * unit * (num' * den) := by ring
    _ = 2 * (num * unit) * den' := by rw [← h]; ring

/-! ## Exact numbers -/

theorem singlesOut_units (m : Nat) : SinglesOut (2 * units m) 1 m := by
  have hlow := intervalLow_le m
  have hhigh := lt_intervalHigh m
  refine ⟨by omega, by omega, fun hodd => ⟨?_, by omega⟩⟩
  have hlt : units (m - 1) < units m := units_strictMono (by omega)
  rw [intervalLow]
  omega

/-- **A number that is the worth of a magnitude** is rounded to that
magnitude. -/
theorem nearest_of_units_eq {num m : Nat} (h : units m = num <<< 1074) : nearest num 1 = m := by
  rw [nearest_eq_iff Nat.one_pos, ← h]
  exact singlesOut_units m

/-- A number of at most 53 bits and zeros after them is the worth of a
magnitude. -/
theorem exists_units_eq {r : Nat} (h : r ≤ 2 * binade) (k : Nat) : ∃ m, units m = r * 2 ^ k := by
  induction k generalizing r with
  | zero => exact ⟨_, units_offset (Or.inl rfl) h⟩
  | succ k ih =>
    rcases Nat.lt_or_ge r binade with hlow | hhigh
    · -- one more zero counts among the bits
      obtain ⟨m, hm⟩ := ih (by omega : 2 * r ≤ 2 * binade)
      exact ⟨m, by rw [hm, pow_succ]; ring⟩
    · exact ⟨_, units_offset (Or.inr hhigh) h⟩

/-- **A number of at most 53 bits and zeros after them** is rounded to what
it is. -/
theorem units_nearest {r : Nat} (h : r ≤ 2 * binade) (k : Nat) :
    units (nearest (r * 2 ^ k) 1) = (r * 2 ^ k) <<< 1074 := by
  obtain ⟨m, hm⟩ := exists_units_eq h (k + 1074)
  have hworth : units m = (r * 2 ^ k) <<< 1074 := by
    rw [hm, Nat.shiftLeft_eq, pow_add, Nat.mul_assoc]
  rw [nearest_of_units_eq hworth, hworth]

/-- **A product of exact numbers** is rounded once. -/
theorem product_eq_nearest {m n a b : Nat} (hm : units m = a <<< 1074)
    (hn : units n = b <<< 1074) : product m n = nearest (a * b) 1 := by
  obtain ⟨unit, hpos, hunit⟩ := exists_unit 1074
  have htwice : 1 <<< 2148 = unit * unit := by
    have h : 1 <<< 2148 = (1 <<< 1074) <<< 1074 := Nat.shiftLeft_add 1 1074 1074
    rw [h, hunit, hunit, Nat.one_mul]
  rw [product, hm, hn, hunit, hunit, htwice]
  refine nearest_congr (Nat.mul_pos hpos hpos) Nat.one_pos ?_
  ring

/-- **A quotient of exact numbers** is rounded once. -/
theorem quotient_eq_nearest {m n a b : Nat} (hm : units m = a <<< 1074)
    (hn : units n = b <<< 1074) (hb : 0 < b) : quotient m n = nearest a b := by
  obtain ⟨unit, hpos, hunit⟩ := exists_unit 1074
  rw [quotient, hm, hn, hunit, hunit]
  refine nearest_congr (Nat.mul_pos hb hpos) hb ?_
  ring

end Double

end FilterTree
