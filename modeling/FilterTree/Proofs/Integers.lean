import FilterTree.Proofs.DocumentRoundTrip
import FilterTree.Proofs.UniqueTexts
import FilterTree.Proofs.ValueTexts
import FilterTree.Value.Operand
import Mathlib.Tactic.TFAE

/-!
# Integers as operands and as values

Many operands are the same integer: nine types are integers, of any width and
with a sign or without. As values all of them are one (`Value.Holds`), a signed
word if one can hold the integer and an unsigned word otherwise, and so there
is one document of an integer and one text. The text is the decimal spelling,
the usual one of integers (`ofList_signedDigits`), and from the text and from
the document the value is decoded again (`Operand.toValue?_of_integer?`).

So nothing of the type of an operand is left in its value, and operands are told
apart by their integers alone.
-/

namespace FilterTree

/-! ## Decimal spellings -/

theorem digitChar_eq {d : Nat} (h : d < 10) : digitChar d = d.digitChar := by
  have all : ∀ d : Fin 10, digitChar d.val = d.val.digitChar := by decide
  exact all ⟨d, h⟩

theorem digits_eq_toDigits (n : Nat) : digits n = Nat.toDigits 10 n := by
  induction n using Nat.strongRecOn with
  | ind n ih =>
    by_cases h : n < 10
    · rw [digits_of_lt h, Nat.toDigits_of_lt_base h, digitChar_eq h]
    · have hle : 10 ≤ n := Nat.le_of_not_lt h
      rw [digits_of_le hle, Nat.toDigits_of_base_le (by decide) hle, ih _ (by omega),
        digitChar_eq (Nat.mod_lt n (by decide))]

/-- **The spelling of an integer** is its usual text. -/
theorem ofList_signedDigits (n : Int) : String.ofList (signedDigits n) = toString n := by
  rw [Int.toString_eq_repr]
  cases n with
  | ofNat n => rw [signedDigits, digits_eq_toDigits, Int.repr, Nat.repr_eq_ofList_toDigits]
  | negSucc n =>
    rw [signedDigits, digits_eq_toDigits, Int.repr, Nat.repr_eq_ofList_toDigits,
      ← List.singleton_append, String.ofList_append]

/-- The text of an integer is its spelling. -/
theorem Json.toText_integer {n : Int} (lower : Number.least ≤ n) (upper : n < Number.bound) :
    (Json.number (.integer n lower upper)).toText = toString n := by
  rw [← ofList_signedDigits, toText, write, numberText, List.append_nil]

/-! ## The value of an integer -/

/-- **The value that holds an integer**: a signed word if one can hold it, and
otherwise an unsigned word. -/
inductive Value.Holds : Value → Int → Prop
  /-- A signed word holds its integer. -/
  | int (m : Int64) : Holds (.int m) m.toInt
  /-- An unsigned word holds its integer above the signed words. -/
  | uint (m : UInt64) (large : 0x8000000000000000 ≤ m.toNat) : Holds (.uint m) m.toNat

namespace Value

variable {v w : Value} {m n : Int}

theorem holds_int {k : Int64} (h : k.toInt = n) : (Value.int k).Holds n :=
  h ▸ .int k

theorem holds_ofInt_natCast {k : Nat} (h : k < 0x8000000000000000) :
    (Value.int (Int64.ofInt k)).Holds k :=
  holds_int (Int64.toInt_ofInt_of_le (by omega) (by omega))

/-- **The normal value of an unsigned word** holds the number of the word. -/
theorem holds_ofUInt64 (k : UInt64) : (ofUInt64 k).Holds k.toNat := by
  by_cases h : k.toNat < 0x8000000000000000
  · rw [ofUInt64, if_pos h]
    exact holds_ofInt_natCast h
  · rw [ofUInt64, if_neg h]
    exact .uint k (Nat.le_of_not_lt h)

/-- **Every integer of 64 bits**, with a sign or without, has a value. -/
theorem exists_holds (lower : Number.least ≤ n) (upper : n < Number.bound) :
    ∃ v : Value, v.Holds n := by
  by_cases h : n < 0x8000000000000000
  · exact ⟨.int (Int64.ofInt n), holds_int (Int64.toInt_ofInt_of_le lower h)⟩
  · have hword : ((UInt64.ofNat n.toNat).toNat : Int) = n := by
      have hlt : n.toNat < UInt64.size := by
        rw [Int.toNat_lt (by omega)]
        exact upper
      rw [UInt64.toNat_ofNat_of_lt' hlt]
      omega
    have hholds := holds_ofUInt64 (UInt64.ofNat n.toNat)
    rw [hword] at hholds
    exact ⟨_, hholds⟩

namespace Holds

theorem least_le (h : v.Holds n) : Number.least ≤ n := by
  cases h with
  | int k => exact Int64.le_toInt k
  | uint k large => exact Int.le_trans (by decide) (Int.natCast_nonneg _)

theorem lt_bound (h : v.Holds n) : n < Number.bound := by
  cases h with
  | int k => exact Int.lt_trans (Int64.toInt_lt k) (by decide)
  | uint k large => exact Int.ofNat_lt.2 k.toNat_lt

/-- **The document of an integer** is the integer. -/
theorem toJson_eq (h : v.Holds n) (lower : Number.least ≤ n) (upper : n < Number.bound) :
    v.toJson = .number (.integer n lower upper) := by
  cases h <;> rfl

theorem ofJson_eq (h : v.Holds n) (lower : Number.least ≤ n) (upper : n < Number.bound) :
    ofJson (.number (.integer n lower upper)) = .ok v := by
  apply Json.ofJson_eq_ok_iff.2
  cases h with
  | int k => exact .int k lower upper
  | uint k large => exact .uint k large lower upper

/-- **The text of an integer** is its spelling. -/
theorem toText_eq (h : v.Holds n) : v.toJson.toText = toString n := by
  rw [h.toJson_eq h.least_le h.lt_bound, Json.toText_integer]

theorem ofText_eq (h : v.Holds n) : ofText (toString n) = .ok v := by
  have hread := (Number.legible_integer n h.least_le h.lt_bound).ofText?_toText
  rw [Json.toText_integer] at hread
  rw [ofText_of_ofText? hread, h.ofJson_eq]
  rfl

theorem ofJson_toJson_eq (h : v.Holds n) : ofJson v.toJson = .ok v := by
  rw [h.toJson_eq h.least_le h.lt_bound, h.ofJson_eq]

/-- **An integer has one value.** -/
theorem unique (hv : v.Holds n) (hw : w.Holds n) : v = w := by
  have hdecoded := hv.ofJson_toJson_eq
  rw [hv.toJson_eq hw.least_le hw.lt_bound, hw.ofJson_eq] at hdecoded
  exact (Except.ok.inj hdecoded).symm

theorem integer_unique (hm : v.Holds m) (hn : v.Holds n) : m = n := by
  cases hm <;> cases hn <;> rfl

theorem unsignZero_eq (h : v.Holds n) : v.unsignZero = v := by
  cases h <;> rfl

/-- **Equality of integers as values and as documents.** Two values that hold
integers are the same exactly when the integers are, and so are their documents
and the texts of these. The equalities of values and of documents compare
doubles as numbers, but between integers they are no coarser. -/
theorem tfae (hv : v.Holds m) (hw : w.Holds n) :
    List.TFAE [m = n, v = w, v.same w = true, v.toJson = w.toJson,
      v.toJson.same w.toJson = true, v.toJson.toText = w.toJson.toText] := by
  tfae_have 1 → 2
  | rfl => hv.unique hw
  tfae_have 2 → 1
  | rfl => hv.integer_unique hw
  tfae_have 3 ↔ 2 := by
    rw [same_iff, hv.unsignZero_eq, hw.unsignZero_eq]
  tfae_have 2 → 4 := congrArg toJson
  tfae_have 4 → 2 := by
    intro h
    have hdecoded := hv.ofJson_toJson_eq
    rw [h, hw.ofJson_toJson_eq] at hdecoded
    exact (Except.ok.inj hdecoded).symm
  tfae_have 5 ↔ 4 := by
    rw [Json.same, normalize_toJson, normalize_toJson, Json.sameForm_iff, ← toJson_unsignZero,
      ← toJson_unsignZero, hv.unsignZero_eq, hw.unsignZero_eq]
  tfae_have 6 ↔ 4 := Json.toText_injective.eq_iff
  tfae_finish

end Holds

end Value

/-! ## Operands that are integers -/

namespace Operand

/-- **The integer that an operand is**, for an operand of one of the nine types
of integers. -/
def integer? : Operand → Option Int
  | .int8 n => some n.toInt
  | .int16 n => some n.toInt
  | .int32 n => some n.toInt
  | .int64 n => some n.toInt
  | .uint8 n => some n.toNat
  | .uint16 n => some n.toNat
  | .uint32 n => some n.toNat
  | .uint64 n => some n.toNat
  | .size n => some n.toNat
  | _ => none

/-- **The value of an integer operand** holds the integer, whatever its type. -/
theorem exists_toValue?_holds {operand : Operand} {n : Int} (h : operand.integer? = some n) :
    ∃ v, operand.toValue? = some v ∧ v.Holds n := by
  cases operand with
  | int8 k =>
    obtain rfl := Option.some.inj h
    exact ⟨_, rfl, Value.holds_int k.toInt_toInt64⟩
  | int16 k =>
    obtain rfl := Option.some.inj h
    exact ⟨_, rfl, Value.holds_int k.toInt_toInt64⟩
  | int32 k =>
    obtain rfl := Option.some.inj h
    exact ⟨_, rfl, Value.holds_int k.toInt_toInt64⟩
  | int64 k =>
    obtain rfl := Option.some.inj h
    exact ⟨_, rfl, .int k⟩
  | uint8 k =>
    obtain rfl := Option.some.inj h
    exact ⟨_, rfl, Value.holds_ofInt_natCast (Nat.lt_trans k.toNat_lt (by decide))⟩
  | uint16 k =>
    obtain rfl := Option.some.inj h
    exact ⟨_, rfl, Value.holds_ofInt_natCast (Nat.lt_trans k.toNat_lt (by decide))⟩
  | uint32 k =>
    obtain rfl := Option.some.inj h
    exact ⟨_, rfl, Value.holds_ofInt_natCast (Nat.lt_trans k.toNat_lt (by decide))⟩
  | uint64 k =>
    obtain rfl := Option.some.inj h
    exact ⟨_, rfl, Value.holds_ofUInt64 k⟩
  | size k =>
    obtain rfl := Option.some.inj h
    exact ⟨_, rfl, Value.holds_ofUInt64 k⟩
  | value v => cases h
  | bool b => cases h
  | text s => cases h
  | finite x => cases h
  | double bits => cases h
  | single bits => cases h
  | absent => cases h
  | present operand => cases h

/-- A value that holds an integer is that of an operand of 64 bits. -/
theorem exists_integer?_of_holds {v : Value} {n : Int} (h : v.Holds n) :
    ∃ operand : Operand, operand.integer? = some n := by
  cases h with
  | int k => exact ⟨.int64 k, rfl⟩
  | uint k large => exact ⟨.uint64 k, rfl⟩

/-- **Integers are normalized alike by building and by decoding.** Each integer
that fits 64 bits, with a sign or without, has one value. Every operand that is
this integer has that value, whatever the type of the operand; the text of its
document is the decimal spelling; and from the spelling as a text and from the
integer as a document the value is decoded. Two operands are then the same
integer exactly when they have equal values, and exactly when these have equal
documents or equal texts. -/
theorem toValue?_of_integer? :
    (∀ (n : Int) (lower : Number.least ≤ n) (upper : n < Number.bound), ∃ v : Value, v.Holds n
      ∧ (∃ operand : Operand, operand.integer? = some n)
      ∧ (∀ operand : Operand, operand.integer? = some n → operand.toValue? = some v)
      ∧ v.toJson.toText = toString n
      ∧ Value.ofText (toString n) = .ok v
      ∧ Value.ofJson (.number (.integer n lower upper)) = .ok v)
    ∧ ∀ (a b : Operand) (m n : Int), a.integer? = some m → b.integer? = some n →
      ∃ v w, a.toValue? = some v ∧ b.toValue? = some w ∧
        List.TFAE [m = n, v = w, v.same w = true, v.toJson = w.toJson,
          v.toJson.same w.toJson = true, v.toJson.toText = w.toJson.toText] := by
  constructor
  · intro n lower upper
    obtain ⟨v, hv⟩ := Value.exists_holds lower upper
    refine ⟨v, hv, exists_integer?_of_holds hv, fun operand hoperand => ?_, hv.toText_eq,
      hv.ofText_eq, hv.ofJson_eq lower upper⟩
    obtain ⟨w, hvalue, hw⟩ := exists_toValue?_holds hoperand
    rw [hvalue, hw.unique hv]
  · intro a b m n ha hb
    obtain ⟨v, hvalue, hv⟩ := exists_toValue?_holds ha
    obtain ⟨w, hvalue', hw⟩ := exists_toValue?_holds hb
    exact ⟨v, w, hvalue, hvalue', hv.tfae hw⟩

/-- The first integer that only an unsigned word can hold and the least of all
have the values of their operands, `42` has one value as a byte and as a size,
and a negative integer is not the word of its bits. -/
theorem toValue?_of_integer?_of_edges :
    (∃ v : Value, v.Holds 0x8000000000000000
      ∧ (Operand.uint64 0x8000000000000000).toValue? = some v
      ∧ Value.ofText (toString (0x8000000000000000 : Int)) = .ok v)
    ∧ (∃ v : Value, v.Holds (-0x8000000000000000)
      ∧ (Operand.int64 (-0x8000000000000000)).toValue? = some v)
    ∧ (∃ v : Value, (Operand.int8 42).toValue? = some v ∧ (Operand.size 42).toValue? = some v
      ∧ v.toJson.toText = toString (42 : Int))
    ∧ ∃ v w, (Operand.int16 (-1)).toValue? = some v
      ∧ (Operand.uint64 0xFFFFFFFFFFFFFFFF).toValue? = some w ∧ v.same w ≠ true := by
  refine ⟨?_, ?_, ?_, ?_⟩
  · obtain ⟨v, hv, -, hoperand, -, htext, -⟩ :=
      toValue?_of_integer?.1 0x8000000000000000 (by decide) (by decide)
    exact ⟨v, hv, hoperand _ (by decide), htext⟩
  · obtain ⟨v, hv, -, hoperand, -⟩ :=
      toValue?_of_integer?.1 (-0x8000000000000000) (by decide) (by decide)
    exact ⟨v, hv, hoperand _ (by decide)⟩
  · obtain ⟨v, -, -, hoperand, htext, -⟩ := toValue?_of_integer?.1 42 (by decide) (by decide)
    exact ⟨v, hoperand _ (by decide), hoperand _ (by decide), htext⟩
  · obtain ⟨v, w, hv, hw, htfae⟩ := toValue?_of_integer?.2 (.int16 (-1))
      (.uint64 0xFFFFFFFFFFFFFFFF) (-1) 0xFFFFFFFFFFFFFFFF (by decide) (by decide)
    exact ⟨v, w, hv, hw, fun h => absurd ((htfae.out 2 0).1 h) (by decide)⟩

end Operand

end FilterTree
