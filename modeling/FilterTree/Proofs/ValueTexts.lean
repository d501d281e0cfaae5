import FilterTree.Proofs.DecodedTrees
import FilterTree.Proofs.Diagnoses
import FilterTree.Proofs.FinitePatterns

/-!
# Values in texts and in documents

A value is decoded from the head of what it is in. A reader of a text has the
head before it has the rest, and of an array or an object it refuses the head
and never gets to the rest. Where the head is a single value there is no rest,
so the reader has a document as soon as it has a value, and at any number of
levels (`Value.ofOutline_eq_ok_iff`). What a text may say after the value is
for both ways the same fault, and so is a number out of range or a string that
is none. Texts and documents are decoded alike, then, in what they give and
where there is a document also in what they are refused for
(`Value.ofText_of_ofText?`).

The values that are decoded are the normal ones: an unsigned word is held only
above the signed ones, and a double is the reading of a finite pattern. So
they come back from their own documents (`Value.ofText_eq_ok_iff_ofJson`).
-/

namespace FilterTree

namespace Value

/-- **A value with a document** is decoded like the document, faults
included. -/
theorem ofOutline_of_toJson? {o : Outline} {levels : Nat} {j : Json}
    (h : o.toJson? levels = some j) : ofOutline o = asData (ofJson j) :=
  Outline.head_bind_of_toJson? h ofHead

/-- **A value of an outline** is that of its document, at any number of
levels. -/
theorem ofOutline_eq_ok_iff (levels : Nat) {o : Outline} {v : Value} :
    ofOutline o = .ok v ↔ ∃ j, o.toJson? levels = some j ∧ ofJson j = .ok v := by
  constructor
  · intro h
    simp only [ofOutline, Outline.head, bind_eq_ok_iff, orMalformed_eq_ok_iff,
      asData_eq_ok_iff] at h
    obtain ⟨head, hhead, hvalue⟩ := h
    cases o with
    | torn => cases hhead
    | null =>
      obtain rfl := Option.some.inj hhead
      exact ⟨.null, rfl, hvalue⟩
    | bool b =>
      obtain rfl := Option.some.inj hhead
      exact ⟨.bool b, rfl, hvalue⟩
    | numeral n =>
      obtain ⟨number, hnumber, rfl⟩ := Option.map_eq_some_iff.1 hhead
      exact ⟨.number number, by rw [Outline.toJson?, hnumber]; rfl, hvalue⟩
    | text pieces =>
      obtain ⟨s, hs, rfl⟩ := Option.map_eq_some_iff.1 hhead
      exact ⟨.text s, by rw [Outline.toJson?, hs]; rfl, hvalue⟩
    | array items closed =>
      -- an array is refused for its head, whatever follows
      obtain rfl := Option.some.inj hhead
      cases hvalue
    | object entries closed =>
      obtain rfl := Option.some.inj hhead
      cases hvalue
  · rintro ⟨j, hj, hvalue⟩
    rw [ofOutline_of_toJson? hj, hvalue]
    rfl

@[simp] theorem ofJson_normalize (j : Json) : ofJson j.normalize = ofJson j := by
  rw [ofJson, ofJson, Json.head_normalize]

/-- **A text with a document is decoded like the document**, to the same value
or with the same fault. -/
theorem ofText_of_ofText? {text : String} {j : Json} (h : Json.ofText? text = some j) :
    ofText text = asData (ofJson j) := by
  obtain ⟨i, hi, rfl⟩ := Option.map_eq_some_iff.1 h
  obtain ⟨htrailing, houtline⟩ := Reading.toJson?_eq_some_iff.1 hi
  rw [ofJson_normalize, ofText, Reading.decode, ofOutline_of_toJson? houtline, htrailing]
  cases ofJson i with
  | error fault => rfl
  | ok v => rfl

/-- **A text from which a value is decoded** has a document. -/
theorem exists_ofText?_of_ofText {text : String} {v : Value} (h : ofText text = .ok v) :
    ∃ j, Json.ofText? text = some j ∧ ofJson j = .ok v := by
  obtain ⟨w, hw, hend⟩ := bind_eq_ok_iff.1 h
  obtain ⟨j, hj, hvalue⟩ := (ofOutline_eq_ok_iff maxLevels).1 hw
  cases htrailing : (Reading.ofText text).trailing with
  | true =>
    rw [htrailing] at hend
    cases hend
  | false =>
    rw [htrailing] at hend
    obtain rfl : w = v := Except.ok.inj hend
    refine ⟨j.normalize, ?_, by rw [ofJson_normalize, hvalue]⟩
    rw [Json.ofText?, Reading.toJson?, htrailing, hj]
    rfl

end Value

theorem Json.DenotesValue.le_toNat {j : Json} {n : UInt64} (h : j.DenotesValue (.uint n)) :
    0x8000000000000000 ≤ n.toNat := by
  cases h with
  | uint _ large => exact large

namespace Value

/-- **A value is decoded alike from a text and from a tree.** It is decoded from
a text exactly when the text has a document from which it is decoded. What is
decoded at all, from a text or from any document, holds an unsigned word only
above the signed ones and a double only of a finite pattern, and is decoded
again from its own document. -/
theorem ofText_eq_ok_iff_ofJson (text : String) (v : Value) :
    (ofText text = .ok v ↔ ∃ j, Json.ofText? text = some j ∧ ofJson j = .ok v)
      ∧ ((ofText text = .ok v ∨ ∃ j, ofJson j = .ok v) →
        (∀ n, v = .uint n → 0x8000000000000000 ≤ n.toNat)
          ∧ (∀ x, v = .float x → ∃ bits, Double.IsFinitePattern bits
            ∧ Double.ofBits? bits = some x)
          ∧ ofJson v.toJson = .ok v) := by
  refine ⟨⟨exists_ofText?_of_ofText, ?_⟩, fun h => ?_⟩
  · rintro ⟨j, hread, hvalue⟩
    rw [ofText_of_ofText? hread, hvalue]
    rfl
  · have hdenotes : ∃ j : Json, j.DenotesValue v := by
      rcases h with htext | ⟨j, hvalue⟩
      · obtain ⟨j, -, hvalue⟩ := exists_ofText?_of_ofText htext
        exact ⟨j, Json.ofJson_eq_ok_iff.1 hvalue⟩
      · exact ⟨j, Json.ofJson_eq_ok_iff.1 hvalue⟩
    obtain ⟨j, hj⟩ := hdenotes
    refine ⟨?_, fun x _ => x.exists_isFinitePattern_ofBits?, ?_⟩
    · rintro n rfl
      exact hj.le_toNat
    · rw [ofJson_toJson, hj.normalize_eq]

/-- The integer after the largest signed word and the zero with a sign come from
a text with blanks around it, as an unsigned word and as a double, and each
comes back from its document. -/
theorem ofText_eq_ok_iff_ofJson_of_edges :
    let large : Value := .uint 0x8000000000000000
    let zero : Value := .float ⟨true, 0, by decide⟩
    (ofText "\t9223372036854775808 " = .ok large
        ∧ (∃ j, Json.ofText? "\t9223372036854775808 " = some j ∧ ofJson j = .ok large)
        ∧ ofJson large.toJson = .ok large)
      ∧ ofText "-0\n" = .ok zero ∧ ofJson zero.toJson = .ok zero := by
  intro large zero
  have hlarge : ofText "\t9223372036854775808 " = .ok large := by decide +kernel
  have hzero : ofText "-0\n" = .ok zero := by decide +kernel
  obtain ⟨hdocument, hback⟩ := ofText_eq_ok_iff_ofJson "\t9223372036854775808 " large
  exact ⟨⟨hlarge, hdocument.1 hlarge, (hback (Or.inl hlarge)).2.2⟩, hzero,
    ((ofText_eq_ok_iff_ofJson _ zero).2 (Or.inl hzero)).2.2⟩

end Value

end FilterTree
