import FilterTree.Proofs.BinaryFormats
import FilterTree.Proofs.LeafRequests
import FilterTree.Proofs.Rounding

/-!
# Widened singles

A number of the smaller binary format becomes a double when it is the operand
of a leaf. The double has its sign and is worth the same (`Double.Widened`),
and since no two patterns of one sign have the same worth there is one such
double, and it comes from no other single.

Widening treats singles in two ways. A normal one keeps its fraction, with 29
zeros behind it, and has its exponent raised by the difference of the biases. A
subnormal one becomes a normal double, so that its leading bit is left out and
its exponent says where that stood. Both count `2 ^ 925` times as many units
as before, and a unit is worth that much less (`Double.units_widen`).

A leaf with single operands is refused for the operands if one of them is not
finite, and holds the widened operands otherwise
(`Operand.single_widened_exactly`).
-/

namespace FilterTree

open BinaryFormat

namespace Double

/-- **A widened single**: a double of the same sign that is worth the same. -/
structure Widened (bits : UInt32) (x : Double) : Prop where
  /-- The single is a finite number. -/
  finite : single.IsFinite bits.toNat
  /-- The signs are the same, that of a zero too. -/
  negative_eq : double.negative x.toBits.toNat = single.negative bits.toNat
  /-- The worth is the same. -/
  worth_eq : double.worth x.toBits.toNat = single.worth bits.toNat

/-! ## What widening does -/

/-- **A subnormal is renormalized.** Its leading bit is moved to where the binade
starts that its place stands for. -/
theorem units_widen_of_lt {magnitude : Nat} (hpos : magnitude ≠ 0)
    (hlow : magnitude < singleBinade) : units (widen magnitude) = magnitude * 2 ^ 925 := by
  have hlog : magnitude.log2 < 23 := (Nat.log2_lt hpos).2 hlow
  have hleading : binade ≤ magnitude * 2 ^ (52 - magnitude.log2) := by
    calc binade = 2 ^ magnitude.log2 * 2 ^ (52 - magnitude.log2) := by
          rw [← pow_add, Nat.add_sub_cancel' (by omega)]
          rfl
      _ ≤ magnitude * 2 ^ (52 - magnitude.log2) :=
          Nat.mul_le_mul_right _ (Nat.log2_self_le hpos)
  have hshort : magnitude * 2 ^ (52 - magnitude.log2) ≤ 2 * binade := by
    calc magnitude * 2 ^ (52 - magnitude.log2)
        ≤ 2 ^ (magnitude.log2 + 1) * 2 ^ (52 - magnitude.log2) :=
          Nat.mul_le_mul_right _ (Nat.le_of_lt Nat.lt_log2_self)
      _ = 2 ^ 53 := by
          rw [← pow_add]
          congr 1
          omega
      _ = 2 * binade := rfl
  have hpower : 2 ^ (52 - magnitude.log2) * 2 ^ (magnitude.log2 + 873) = 2 ^ 925 := by
    rw [← pow_add]
    exact congrArg (2 ^ ·) (by omega)
  rw [widen, if_neg hpos, if_pos hlow, Nat.shiftLeft_eq, units_offset (Or.inr hleading) hshort,
    Nat.mul_assoc, hpower]

/-- **A normal number is shifted.** Its exponent is raised, and its significand
gets zeros at the end. -/
theorem units_widen_of_le {magnitude : Nat} (hhigh : singleBinade ≤ magnitude) :
    units (widen magnitude)
      = (singleBinade + magnitude % singleBinade) * 2 ^ (magnitude / singleBinade - 1)
        * 2 ^ 925 := by
  have hpos : magnitude ≠ 0 := Nat.ne_of_gt (Nat.lt_of_lt_of_le (by decide) hhigh)
  have hsplit : (magnitude + 896 * singleBinade) <<< 29
      = (magnitude / singleBinade + 895) * binade
        + (singleBinade + magnitude % singleBinade) * 2 ^ 29 := by
    rw [Nat.shiftLeft_eq]
    simp only [singleBinade, binade] at *
    omega
  have hleading : binade ≤ (singleBinade + magnitude % singleBinade) * 2 ^ 29 := by
    simp only [singleBinade, binade]
    omega
  have hshort : (singleBinade + magnitude % singleBinade) * 2 ^ 29 ≤ 2 * binade := by
    simp only [singleBinade, binade]
    omega
  have hpower : 2 ^ 29 * 2 ^ (magnitude / singleBinade + 895)
      = 2 ^ (magnitude / singleBinade - 1) * 2 ^ 925 := by
    rw [← pow_add, ← pow_add]
    simp only [singleBinade] at *
    exact congrArg (2 ^ ·) (by omega)
  rw [widen, if_neg hpos, if_neg (Nat.not_lt.2 hhigh), hsplit,
    units_offset (Or.inr hleading) hshort, Nat.mul_assoc, hpower, Nat.mul_assoc]

/-- **Widening multiplies the units** of a magnitude, of each kind alike. -/
theorem units_widen (bits : Nat) :
    units (widen (bits % 0x80000000)) = single.units bits * 2 ^ 925 := by
  have hunits : single.units bits
      = if bits % 0x80000000 < singleBinade then bits % 0x80000000
        else (singleBinade + bits % 0x80000000 % singleBinade)
          * 2 ^ (bits % 0x80000000 / singleBinade - 1) := single.units_eq bits
  rw [hunits]
  by_cases hzero : bits % 0x80000000 = 0
  · rw [hzero, if_pos (by decide), Nat.zero_mul]
    rfl
  · split
    · rename_i hlow
      exact units_widen_of_lt hzero hlow
    · rename_i hhigh
      exact units_widen_of_le (Nat.not_lt.1 hhigh)

theorem unit_single : single.unit = 2 ^ 925 * double.unit := by
  have hscale : (1 : ℤ) - single.bias - single.fractionBits
      = (925 : Nat) + (1 - (double.bias : ℤ) - double.fractionBits) := rfl
  rw [unit, hscale, zpow_add₀ two_ne_zero, zpow_natCast]
  rfl

/-! ## Singles and their doubles -/

variable {bits other : UInt32} {x y : Double}

/-- **The sign of a single**, read from its pattern. -/
theorem negative_single (bits : UInt32) :
    single.negative bits.toNat = decide (0x80000000 ≤ bits.toNat) := by
  have hbits := bits.toNat_lt
  show bits.toNat.testBit 31 = _
  rw [Nat.testBit_eq_decide_div_mod_eq]
  exact decide_eq_decide.2 (by omega)

/-- **What is read from a single** is the single widened. -/
theorem widened_of_ofSingleBits? (h : ofSingleBits? bits = some x) : Widened bits x := by
  have hfinite : single.IsFinite bits.toNat := by
    refine mt ofSingleBits?_eq_none_iff.2 ?_
    rw [h]
    exact Option.some_ne_none x
  have hparts : x.negative = single.negative bits.toNat
      ∧ x.magnitude = widen (bits.toNat % 0x80000000) := by
    rw [negative_single]
    simp only [ofSingleBits?, ofMagnitude?, Option.ite_none_right_eq_some,
      Option.dite_none_right_eq_some] at h
    obtain ⟨_, _, hx⟩ := h
    obtain rfl := Option.some.inj hx
    exact ⟨rfl, rfl⟩
  obtain ⟨hnegative, hmagnitude⟩ := hparts
  refine ⟨hfinite, (negative_toBits x).trans hnegative, ?_⟩
  rw [worth_toBits, BinaryFormat.worth_eq, hnegative, hmagnitude, units_widen, unit_single,
    Nat.cast_mul, Nat.cast_pow, Nat.cast_ofNat, mul_assoc]

/-- **There is one widened double** at most. -/
theorem Widened.unique (hx : Widened bits x) (hy : Widened bits y) : x = y := by
  refine toBits_injective (UInt64.toNat_inj.1 ?_)
  refine eq_of_worth_eq ?_ ?_ (hx.negative_eq.trans hy.negative_eq.symm)
    (hx.worth_eq.trans hy.worth_eq.symm)
  · exact x.toBits.toNat_lt
  · exact y.toBits.toNat_lt

/-- **A double is widened from one single** at most. -/
theorem Widened.injective (h : Widened bits x) (hother : Widened other x) : bits = other := by
  refine UInt32.toNat_inj.1 ?_
  refine eq_of_worth_eq ?_ ?_ (h.negative_eq.symm.trans hother.negative_eq)
    (h.worth_eq.symm.trans hother.worth_eq)
  · exact bits.toNat_lt
  · exact other.toNat_lt

/-- **A finite single is widened.** -/
theorem exists_widened (h : single.IsFinite bits.toNat) :
    ∃ x, ofSingleBits? bits = some x ∧ Widened bits x := by
  obtain ⟨x, hx⟩ := Option.ne_none_iff_exists'.1 (mt ofSingleBits?_eq_none_iff.1 h)
  exact ⟨x, hx, widened_of_ofSingleBits? hx⟩

/-- **The reading of a single** is the double that it is widened to. -/
theorem ofSingleBits?_eq_some_iff : ofSingleBits? bits = some x ↔ Widened bits x := by
  refine ⟨widened_of_ofSingleBits?, fun h => ?_⟩
  obtain ⟨y, hread, hy⟩ := exists_widened h.finite
  rw [hread, hy.unique h]

end Double

/-! ## Leaves with single operands -/

/-- **The value of a single** is the double that it is widened to. -/
theorem Operand.toValue?_single_eq_some_iff {bits : UInt32} {value : Value} :
    (Operand.single bits).toValue? = some value
      ↔ ∃ x, Double.Widened bits x ∧ value = .float x := by
  rw [toValue?, Option.map_eq_some_iff]
  simp only [Double.ofSingleBits?_eq_some_iff, eq_comm (b := value)]

theorem Operand.isNotFinite_single_iff {bits : UInt32} :
    (Operand.single bits).IsNotFinite ↔ ¬ BinaryFormat.single.IsFinite bits.toNat :=
  not_not.symm

/-- **The values of singles** are the doubles that they are widened to. -/
theorem Operand.forall₂_toValue?_single_iff {singles : List UInt32} {values : List Value} :
    List.Forall₂ (fun operand value => operand.toValue? = some value)
        (singles.map Operand.single) values
      ↔ ∃ xs, List.Forall₂ Double.Widened singles xs ∧ values = xs.map .float := by
  induction singles generalizing values with
  | nil =>
    simp only [List.map_nil, List.forall₂_nil_left_iff]
    exact ⟨fun h => ⟨[], rfl, h⟩, fun ⟨xs, hxs, h⟩ => by rw [h, hxs, List.map_nil]⟩
  | cons bits singles ih =>
    simp only [List.map_cons, List.forall₂_cons_left_iff, toValue?_single_eq_some_iff, ih]
    constructor
    · rintro ⟨_, _, ⟨x, hx, rfl⟩, ⟨xs, hxs, rfl⟩, rfl⟩
      exact ⟨x :: xs, ⟨x, xs, hx, hxs, rfl⟩, rfl⟩
    · rintro ⟨_, ⟨x, xs, hx, hxs, rfl⟩, rfl⟩
      exact ⟨.float x, xs.map .float, ⟨x, hx, rfl⟩, ⟨xs, hxs, rfl⟩, rfl⟩

namespace Policy

variable {policy : Policy} {operator : Operator} {key : String}

/-- **Singles are granted widened** if the key and the length of the list are
allowed. -/
theorem grants_singles_iff {singles : List UInt32} {values : List Value}
    (hkey : policy.AllowsKey key) (hlist : singles ≠ [] ∨ policy.allowEmptyValues = true) :
    policy.Grants key (singles.map .single) values
      ↔ ∃ xs, List.Forall₂ Double.Widened singles xs ∧ values = xs.map .float := by
  rw [← Operand.forall₂_toValue?_single_iff]
  exact ⟨Grants.values_eq,
    fun h => ⟨hkey, h, hlist.imp_left (mt List.map_eq_nil_iff.1)⟩⟩

/-- **Singles are refused** if one of them is not finite, and if the key and the
length of the list are allowed then for nothing else. -/
theorem refuses_singles_iff {singles : List UInt32} {failure : Failure}
    (hkey : policy.AllowsKey key) (hlist : singles ≠ [] ∨ policy.allowEmptyValues = true) :
    policy.Refuses operator key (singles.map .single) failure
      ↔ (∃ bits ∈ singles, ¬ BinaryFormat.single.IsFinite bits.toNat)
        ∧ failure = .notFinite operator key := by
  rw [refuses_iff_of_allowed hkey (hlist.imp_left (mt List.map_eq_nil_iff.1))]
  simp only [List.mem_map, exists_exists_and_eq_and, Operand.isNotFinite_single_iff]

/-- **A leaf that looks up singles** holds them widened. -/
theorem settles_membership_singles {singles : List UInt32}
    (hkey : policy.AllowsKey key) (hlist : singles ≠ [] ∨ policy.allowEmptyValues = true) :
    (policy.membership key (singles.map .single)).Settles
      (fun p => ∃ xs, List.Forall₂ Double.Widened singles xs ∧ p = .member key (xs.map .float))
      (fun failure => (∃ bits ∈ singles, ¬ BinaryFormat.single.IsFinite bits.toNat)
        ∧ failure = .notFinite .member key) := by
  refine (policy.settles_membership key _).congr (fun p => ?_)
    fun failure => refuses_singles_iff hkey hlist
  simp only [grants_singles_iff hkey hlist]
  constructor
  · rintro ⟨_, ⟨xs, hxs, rfl⟩, rfl⟩
    exact ⟨xs, hxs, rfl⟩
  · rintro ⟨xs, hxs, rfl⟩
    exact ⟨_, ⟨xs, hxs, rfl⟩, rfl⟩

/-- **A leaf that compares with a single** holds it widened. -/
theorem settles_comparison_single (relation : Relation) (bits : UInt32)
    (hkey : policy.AllowsKey key) :
    (policy.comparison relation key (.single bits)).Settles
      (fun p => ∃ x, Double.Widened bits x ∧ p = .compare relation key (.float x))
      (fun failure => ¬ BinaryFormat.single.IsFinite bits.toNat
        ∧ failure = .notFinite (.compare relation) key) := by
  have hlist : [bits] ≠ [] ∨ policy.allowEmptyValues = true := Or.inl (List.cons_ne_nil _ _)
  refine (policy.settles_comparison relation key (.single bits)).congr (fun p => ?_)
    fun failure => ?_
  · have hgrants : ∀ value, policy.Grants key [.single bits] [value]
        ↔ ∃ x, Double.Widened bits x ∧ value = .float x := by
      intro value
      rw [← Operand.toValue?_single_eq_some_iff]
      exact ⟨fun h => (List.forall₂_cons.1 h.values_eq).1,
        fun h => ⟨hkey, .cons h .nil, Or.inl (List.cons_ne_nil _ _)⟩⟩
    simp only [hgrants]
    constructor
    · rintro ⟨_, ⟨x, hx, rfl⟩, rfl⟩
      exact ⟨x, hx, rfl⟩
    · rintro ⟨x, hx, rfl⟩
      exact ⟨_, ⟨x, hx, rfl⟩, rfl⟩
  · refine (refuses_singles_iff hkey hlist).trans ?_
    simp only [List.mem_singleton, exists_eq_left]

end Policy

/-- **Singles are widened exactly.** A single has no value if it is no number or
an infinity, and any other one has the value of the double it is widened to,
which is that of no other single. Under a key that the policy allows, a leaf
that compares with a single is given if the single is finite and holds the
widened double, and a leaf that looks singles up in a list that is allowed is
given if all of them are finite and holds theirs. -/
theorem Operand.single_widened_exactly :
    (∀ bits : UInt32,
        ((Operand.single bits).toValue? = none
          ↔ BinaryFormat.single.IsNaN bits.toNat ∨ BinaryFormat.single.IsInfinity bits.toNat)
        ∧ (BinaryFormat.single.IsFinite bits.toNat
          ↔ ∃ x, (Operand.single bits).toValue? = some (.float x)
            ∧ Double.ofBits? x.toBits = some x ∧ Double.Widened bits x))
      ∧ (∀ (bits other : UInt32) (x y : Double),
        (Operand.single bits).toValue? = some (.float x) →
        (Operand.single other).toValue? = some (.float y) → x.toBits = y.toBits → bits = other)
      ∧ ∀ (policy : Policy) (key : String), policy.AllowsKey key →
        (∀ relation bits, (policy.comparison relation key (.single bits)).Settles
          (fun p => ∃ x, Double.Widened bits x ∧ p = .compare relation key (.float x))
          (fun failure => ¬ BinaryFormat.single.IsFinite bits.toNat
            ∧ failure = .notFinite (.compare relation) key))
        ∧ ∀ singles, singles ≠ [] ∨ policy.allowEmptyValues = true →
          (policy.membership key (singles.map .single)).Settles
            (fun p => ∃ xs, List.Forall₂ Double.Widened singles xs
              ∧ p = .member key (xs.map .float))
            (fun failure => (∃ bits ∈ singles, ¬ BinaryFormat.single.IsFinite bits.toNat)
              ∧ failure = .notFinite .member key) := by
  refine ⟨fun bits => ⟨?_, ?_⟩, ?_, fun policy key hkey =>
    ⟨fun relation bits => Policy.settles_comparison_single relation bits hkey,
      fun singles hlist => Policy.settles_membership_singles hkey hlist⟩⟩
  · rw [toValue?_eq_none_iff, isNotFinite_single_iff, not_isFinite_iff]
  · constructor
    · intro hfinite
      obtain ⟨x, -, hx⟩ := Double.exists_widened hfinite
      exact ⟨x, toValue?_single_eq_some_iff.2 ⟨x, hx, rfl⟩, x.ofBits?_toBits, hx⟩
    · rintro ⟨x, -, -, hx⟩
      exact hx.finite
  · intro bits other x y hbits hother hsame
    obtain ⟨_, hx, ⟨⟩⟩ := toValue?_single_eq_some_iff.1 hbits
    obtain ⟨_, hy, ⟨⟩⟩ := toValue?_single_eq_some_iff.1 hother
    obtain rfl := Double.toBits_injective hsame
    exact hx.injective hy

/-- The negative subnormal next to zero becomes the normal double of the same
worth, and the negative zero beside it in a list stays negative. The infinity
is refused. -/
theorem Operand.single_widened_exactly_of_least_subnormal :
    let least : Double := ⟨true, 874 * Double.binade, by decide⟩
    let zero : Double := ⟨true, 0, by decide⟩
    BinaryFormat.double.worth least.toBits.toNat = -2 ^ (-149 : ℤ)
      ∧ (Policy.strict.comparison .less "price" (.single 0x80000001)).run []
        = (.ok (.compare .less "price" (.float least)), [])
      ∧ (Policy.strict.membership "price" [.single 0x80000001, .single 0x80000000]).run []
        = (.ok (.member "price" [.float least, .float zero]), [])
      ∧ (Policy.strict.comparison .less "price" (.single 0x7F800000)).run []
        = (.error (.notFinite (.compare .less) "price"),
          [.rejected (.notFinite (.compare .less) "price")]) := by
  intro least zero
  obtain ⟨-, -, hleaves⟩ := single_widened_exactly
  obtain ⟨hcomparison, hmembership⟩ := hleaves Policy.strict "price" (Or.inl (by decide))
  have hleast : Double.Widened 0x80000001 least := Double.ofSingleBits?_eq_some_iff.1 rfl
  have hzero : Double.Widened 0x80000000 zero := Double.ofSingleBits?_eq_some_iff.1 rfl
  refine ⟨?_, ((hcomparison .less 0x80000001).ok_iff [] _).2 ⟨least, hleast, rfl⟩, ?_, ?_⟩
  · have hnegative : BinaryFormat.single.negative 0x80000001 = true := by decide
    have hunits : BinaryFormat.single.units 0x80000001 = 1 := by decide
    rw [hleast.worth_eq]
    show BinaryFormat.single.worth 0x80000001 = _
    rw [BinaryFormat.worth_eq, hnegative, hunits, if_pos rfl, Nat.cast_one, one_mul, neg_one_mul]
    rfl
  · exact ((hmembership [0x80000001, 0x80000000] (Or.inl (List.cons_ne_nil _ _))).ok_iff [] _).2
      ⟨[least, zero], .cons hleast (.cons hzero .nil), rfl⟩
  · exact ((hcomparison .less 0x7F800000).error_iff [] _).2 ⟨fun h => h (by decide), rfl⟩

end FilterTree
