import FilterTree.Proofs.CanonicalForm
import FilterTree.Proofs.TextDecoding
import FilterTree.Proofs.Writing
import FilterTree.Value.Decode

/-!
# Doubles in texts

The text of a double names it without doubt: the decimal that is written is
rounded to the double and to no other (`Double.nearest_written`). A reader
that rounds that decimal once gives every double back. The reader of number
literals rounds more than once, namely the digits, the power of ten and the
result of scaling the one by the other, and what it makes of the text is
`Double.reread?`. That is exactly what becomes of a double in a value and in
a leaf, and a leaf comes back with its own threshold when `reread?` gives
that and otherwise with another or not at all
(`Predicate.ofText_toText_float`).

If digits and power of ten are doubles themselves, then only the last
rounding is left and the double does come back. That is so for at most 53
bits of digits and an exponent of at most 22 places either way
(`Double.reread?_of_exact`). The double `2 ^ 53 - 1` is an example of those
that do not come back: it is written with a zero after the point, so its
digits are ten times as large.
-/

namespace FilterTree

/-! ## Exact operands -/

namespace Numeral

/-- The first powers of ten are doubles. -/
theorem units_tenPower {n : Nat} (h : n ≤ 22) :
    Double.units (tenPower n) = (10 ^ n) <<< 1074 := by
  have hfive : 5 ^ n ≤ 2 * Double.binade :=
    (Nat.pow_le_pow_right (by decide) h).trans (by decide)
  have hten : 5 ^ n * 2 ^ n = 10 ^ n := (Nat.mul_pow 5 2 n).symm
  rw [tenPower, Nat.pow_eq, ← hten]
  exact Double.units_nearest hfive n

/-- **Scaling of exact operands** rounds once: digits of at most 53 bits, to a
place at most 22 from the point. -/
theorem scale_nearest {s : Nat} (hs : s ≤ 2 * Double.binade) {e : Int} (he : e.natAbs ≤ 22) :
    scale (Double.nearest s 1) e
      = Double.nearest (⟨s, e⟩ : Decimal).num (⟨s, e⟩ : Decimal).den := by
  have hdigits : Double.units (Double.nearest s 1) = s <<< 1074 := by
    have h := Double.units_nearest hs 0
    rwa [pow_zero, Nat.mul_one] at h
  cases e with
  | ofNat n =>
    have hn : n ≤ 22 := he
    rw [scale, Int.ofNat_eq_natCast, Decimal.num_natCast, Decimal.den_natCast]
    split
    · -- only zero is rounded to zero
      rename_i hzero
      obtain ⟨unit, hpos, hunit⟩ := Double.exists_unit 1074
      rw [hzero, hunit] at hdigits
      obtain rfl : s = 0 :=
        (Nat.mul_eq_zero.1 hdigits.symm).resolve_right (Nat.ne_of_gt hpos)
      rw [Nat.zero_mul, Double.nearest_zero]
    · rw [if_pos (by omega), Double.product_eq_nearest hdigits (units_tenPower hn)]
  | negSucc n =>
    have hn : n + 1 ≤ 22 := he
    have hstages : n / 308 = 0 := Nat.div_eq_of_lt (by omega)
    have hnum : (⟨s, Int.negSucc n⟩ : Decimal).num = s := Nat.mul_one s
    simp only [scale, hstages, lowerByStages, Nat.mul_zero, Nat.sub_zero]
    rw [Double.quotient_eq_nearest hdigits (units_tenPower hn) (Nat.pow_pos (by decide)), hnum]
    rfl

end Numeral

namespace Double

/-- **The text of a double names it**: the decimal that is written is rounded
to the double. -/
theorem nearest_written (x : Double) : nearest x.written.num x.written.den = x.magnitude := by
  unfold written
  by_cases hzero : x.magnitude = 0
  · rw [if_pos hzero, hzero, Decimal.num, Nat.zero_mul, nearest_zero]
  · rw [if_neg hzero]
    have hshortest := nearest_shortest .toEven (Nat.pos_of_ne_zero hzero) x.magnitude_lt
    generalize shortest .toEven x.magnitude = decimal at *
    obtain ⟨s, e⟩ := decimal
    simp only
    split
    · -- the same number, written down to another place
      rename_i hwhole
      obtain ⟨k, rfl⟩ := Int.eq_ofNat_of_zero_le hwhole.1
      rw [← hshortest]
      refine nearest_congr (Decimal.den_pos _) (Decimal.den_pos _) ?_
      rw [Int.toNat_natCast, Decimal.num_natCast, Decimal.den_natCast]
      show s * 10 ^ (k + 1) * 10 ^ 0 * 1 = s * 10 ^ k * 10 ^ 1
      ring
    · exact hshortest

/-- The digits that are written for a double fit a significand. -/
theorem significand_written_lt (x : Double) : x.written.significand < 0x10000000000000000 := by
  unfold written
  by_cases hzero : x.magnitude = 0
  · rw [if_pos hzero]
    decide
  · rw [if_neg hzero]
    have hshortest :=
      significand_shortest_lt .toEven (Nat.pos_of_ne_zero hzero) x.magnitude_lt
    generalize shortest .toEven x.magnitude = decimal at *
    obtain ⟨s, e⟩ := decimal
    simp only
    split
    · -- the digits and the zeros are 17 at most
      rename_i hwhole
      have hlength : (digits s).length + (e.toNat + 1) ≤ 17 := by omega
      calc s * 10 ^ (e.toNat + 1)
          < 10 ^ (digits s).length * 10 ^ (e.toNat + 1) :=
            Nat.mul_lt_mul_of_pos_right (lt_ten_pow_length_digits s) (Nat.pow_pos (by decide))
        _ = 10 ^ ((digits s).length + (e.toNat + 1)) := (pow_add ..).symm
        _ ≤ 10 ^ 17 := Nat.pow_le_pow_right (by decide) hlength
        _ < 0x10000000000000000 := by decide
    · exact hshortest

/-- **What a reader makes of the text of a double**: its digits rounded to a
double, and that scaled to the place of the last digit, unless the result is
out of range. -/
def reread? (x : Double) : Option Double :=
  ofMagnitude? x.negative
    (Numeral.scale (nearest x.written.significand 1) x.written.exponent)

/-- **The literal written for a double** is worth what a reader makes of
it. -/
theorem exists_literal_worth (x : Double) :
    ∃ n, Numeral.ofChars? (Json.numberText (.float x)) = some n
      ∧ n.number? = x.reread?.map .float := by
  obtain ⟨n, hnegative, hn, htext⟩ := x.exists_literal
  refine ⟨n, by rw [Json.numberText, htext, Numeral.ofChars?_chars hn.proper], ?_⟩
  have hfits : n.significand < 0x10000000000000000 := hn.significand ▸ x.significand_written_lt
  rw [Numeral.number?_of_ne hn.marked, Numeral.float?_eq hfits, hn.significand, hn.place, hnegative,
    reread?]

/-- **A double is given back** if few digits are written for it: at most 53
bits of them, and the last one at most 22 places from the point. -/
theorem reread?_of_exact {x : Double} (hdigits : x.written.significand ≤ 0x20000000000000)
    (hplace : x.written.exponent.natAbs ≤ 22) : x.reread? = some x := by
  have hread := (Numeral.scale_nearest hdigits hplace).trans x.nearest_written
  rw [reread?, hread, ofMagnitude?, dif_pos x.magnitude_lt]

end Double

/-! ## Values and leaves -/

/-- **The text of a double is decoded** to the double that a reader makes of
it. -/
theorem Value.ofText_toText_float_eq_ok_iff {x : Double} {v : Value} :
    ofText (Value.float x).toJson.toText = .ok v ↔ ∃ y, x.reread? = some y ∧ v = .float y := by
  obtain ⟨n, hn, hworth⟩ := x.exists_literal_worth
  have hreading : Reading.ofText (Value.float x).toJson.toText = ⟨.numeral n, false⟩ :=
    (Json.readTo_number hn).ofText_toText
  rw [ofText, hreading, Reading.decode]
  simp only [bind_eq_ok_iff, ofOutline, Outline.head, Outline.head?, hworth,
    orMalformed_eq_ok_iff, asData_eq_ok_iff, Option.map_eq_some_iff, Bool.false_eq_true, if_false,
    Except.ok.injEq]
  constructor
  · rintro ⟨_, ⟨_, ⟨_, ⟨y, hy, rfl⟩, rfl⟩, hv⟩, rfl⟩
    exact ⟨y, hy, (Except.ok.inj hv).symm⟩
  · rintro ⟨y, hy, rfl⟩
    exact ⟨_, ⟨_, ⟨_, ⟨y, hy, rfl⟩, rfl⟩, rfl⟩, rfl⟩

namespace Predicate

/-- The document of the text of a comparison with a double is the canonical
form of the comparison with what a reader makes of the double. -/
theorem toJson?_ofText_toText_compare (relation : Relation) (key : String) (x : Double) :
    (Reading.ofText (compare relation key (.float x)).canonical.toText).toJson?
      = x.reread?.map fun y => (compare relation key (.float y)).canonical := by
  obtain ⟨n, hn, hworth⟩ := x.exists_literal_worth
  have hread : (compare relation key (.float x)).canonical.ReadTo
      (.object [(piecesOf "key", .text (piecesOf key)),
        (piecesOf "op", .text (piecesOf (Operator.compare relation).name)),
        (piecesOf "value", .numeral n)] true) := by
    rw [canonical]
    exact Json.readTo_object (.cons ⟨rfl, Json.readTo_text _⟩ (.cons ⟨rfl, Json.readTo_text _⟩
      (.cons ⟨rfl, Json.readTo_number hn⟩ .nil)))
  rw [hread.ofText_toText, Reading.toJson?]
  show Outline.toJson? _ (levelsBelowRoot + 1) = _
  simp only [Outline.toJson?, Outline.entriesToJson?, textOf?_piecesOf, hworth]
  cases x.reread? with
  | none => rfl
  | some y =>
    simp only [Option.map_some, canonical]
    rfl

/-- **The text of a comparison with a double is decoded** to the comparison
with the double that a reader makes of it. -/
theorem ofText_toText_compare_eq_ok_iff {relation : Relation} {key : String} {x : Double}
    {q : Predicate} :
    (ofText (compare relation key (.float x)).canonical.toText).outcome.1 = .ok q
      ↔ key ≠ "" ∧ ∃ y, x.reread? = some y ∧ q = compare relation key (.float y) := by
  rw [outcome_ofText_eq_ok_iff_denotes, toJson?_ofText_toText_compare]
  have hmeaning : ∀ y, (compare relation key (.float y)).IsMeaningful ↔ key ≠ "" := by
    intro y
    simp [IsMeaningful, leaves, key?, values?]
  constructor
  · rintro ⟨j, hj, hdenotes, hq⟩
    obtain ⟨y, hy, rfl⟩ := Option.map_eq_some_iff.1 hj
    obtain rfl : compare relation key (.float y) = q :=
      Except.ok.inj ((ofShape_canonical _).symm.trans (ofNode_eq_ok_iff.2 hdenotes))
    exact ⟨(hmeaning y).1 hq, y, hy, rfl⟩
  · rintro ⟨hkey, y, hy, rfl⟩
    exact ⟨_, by rw [hy]; rfl, canonical_denotes _ .root, (hmeaning y).2 hkey⟩

/-- **What becomes of a double in a text.** The text of a double is decoded to
what a reader makes of it and to nothing else, as a value and as what a leaf
compares with. That is the double itself if at most 53 bits of digits are
written for it, the last of them at most 22 places from the point. -/
theorem ofText_toText_float (x : Double) :
    (∀ v, Value.ofText (Value.float x).toJson.toText = .ok v
        ↔ ∃ y, x.reread? = some y ∧ v = .float y)
      ∧ (∀ relation key q,
        (ofText (compare relation key (.float x)).canonical.toText).outcome.1 = .ok q
          ↔ key ≠ "" ∧ ∃ y, x.reread? = some y ∧ q = .compare relation key (.float y))
      ∧ (x.written.significand ≤ 0x20000000000000 → x.written.exponent.natAbs ≤ 22 →
        x.reread? = some x) :=
  ⟨fun _ => Value.ofText_toText_float_eq_ok_iff, fun _ _ _ => ofText_toText_compare_eq_ok_iff,
    Double.reread?_of_exact⟩

/-- One half comes back from its text, in a value and in a leaf. -/
theorem ofText_toText_float_of_half :
    let half : Double := ⟨false, 0x3FE0000000000000, by decide⟩
    Value.ofText (Value.float half).toJson.toText = .ok (.float half)
      ∧ (ofText (compare .greater "price" (.float half)).canonical.toText).outcome.1
        = .ok (compare .greater "price" (.float half)) := by
  intro half
  have hdigits : half.written.significand ≤ 0x20000000000000 := by decide +kernel
  have hplace : half.written.exponent.natAbs ≤ 22 := by decide +kernel
  obtain ⟨hvalue, hleaf, hexact⟩ := ofText_toText_float half
  have hback := hexact hdigits hplace
  exact ⟨(hvalue _).2 ⟨half, hback, rfl⟩, (hleaf _ _ _).2 ⟨by decide, half, hback, rfl⟩⟩

/-- **Not every double comes back** from its text: `2 ^ 53 - 1` is read to the
double below it. -/
theorem not_forall_ofText_toText_float :
    ¬ ∀ x : Double, Value.ofText (Value.float x).toJson.toText = .ok (.float x) := by
  intro h
  have hread : (⟨false, 0x433FFFFFFFFFFFFF, by decide⟩ : Double).reread?
      = some ⟨false, 0x433FFFFFFFFFFFFE, by decide⟩ := by
    decide +kernel
  obtain ⟨y, hy, hvalue⟩ := Value.ofText_toText_float_eq_ok_iff.1
    (h ⟨false, 0x433FFFFFFFFFFFFF, by decide⟩)
  obtain rfl := Option.some.inj (hread.symm.trans hy)
  exact absurd hvalue (by decide)

end Predicate

end FilterTree
