import FilterTree.Proofs.DoubleRoundTrip
import FilterTree.Proofs.Equality
import FilterTree.Proofs.TextRoundTrip

/-!
# From a tree to text and to its canonical form

Not everyone who takes in the text of a tree decodes it. A reader that makes
a document of the text, and nothing more, has the canonical form again, with
every number of the kind it was and with every bit of it
(`Predicate.ofText?_toText_canonical`). That is said of all trees. A leaf that
no decoder accepts is in the document like any other, and so is an unsigned
word that decoding would turn into a signed one.

Two things are asked. The tree may not nest deeper than a reader follows, and
that bound is exact, for a text beyond it has no document at all. The text of
every double must be read back to the double, and `Number.legible_float_iff`
says of which doubles that is true.
-/

namespace FilterTree

namespace Number

/-- **A double is legible** when it is what a reader makes of its text. -/
theorem legible_float_iff {x : Double} : (float x).Legible ↔ x.reread? = some x := by
  obtain ⟨n, hn, hworth⟩ := x.exists_literal_worth
  rw [Legible, hn, Option.bind_some, hworth]
  simp

/-- The text of a legible number on its own reads back. -/
theorem Legible.ofText?_toText {n : Number} (h : n.Legible) :
    Json.ofText? (Json.number n).toText = some (.number n) := by
  rw [Json.ofText?, toJson?_ofText_toText, h]
  rfl

end Number

namespace Predicate

/-- The text of a legible canonical form has that form for its document, if
the tree does not nest too deep, and otherwise none. -/
theorem ofText?_toText_of_legible {p : Predicate} (h : p.canonical.Legible) :
    Json.ofText? p.canonical.toText = if p.nesting ≤ maxLevels then some p.canonical else none := by
  rw [Json.ofText?, h.toJson?_ofText_toText, nesting_canonical]
  by_cases hnesting : p.nesting ≤ maxLevels
  · rw [if_pos hnesting, Option.map_some, normalize_canonical]
  · rw [if_neg hnesting, Option.map_none]

/-- **The document of the text of a tree** is the canonical form of the tree.
The text has a document exactly when the tree nests no deeper than a reader
follows, whatever its leaves are, given that the text of every double in the
tree reads back. -/
theorem ofText?_toText_canonical (p : Predicate)
    (hfloats : ∀ x, .float x ∈ p.constants →
      Json.ofText? (Json.number (.float x)).toText = some (.number (.float x))) :
    ((∃ j, Json.ofText? p.canonical.toText = some j) ↔ p.nesting ≤ 127)
      ∧ ∀ j, Json.ofText? p.canonical.toText = some j → j = p.canonical := by
  have hlegible : p.canonical.Legible :=
    legible_canonical fun x hx => Number.legible_of_ofText? (hfloats x hx)
  rw [ofText?_toText_of_legible hlegible]
  simp only [Option.ite_none_right_eq_some, Option.some.injEq, exists_and_left, exists_eq',
    and_true]
  exact ⟨Iff.rfl, fun j hj => hj.2.symm⟩

/-- A disjunction with an empty key, an empty list, a double and integers of
both signs comes back as its canonical form under 123 negations. One more
negation is too deep. -/
theorem ofText?_toText_canonical_of_vacuous_leaves :
    let half : Double := ⟨true, 0x3FE0000000000000, by decide⟩
    let p : Predicate := .join .or [.compare .less "" (.float half),
      .member "\"]\\" [], .member "é" [.int (-5), .uint 42, .uint 0xFFFFFFFFFFFFFFFF]]
    (∃ j, Json.ofText? (Nat.repeat negate 123 p).canonical.toText = some j)
      ∧ (∀ j, Json.ofText? (Nat.repeat negate 123 p).canonical.toText = some j →
        j = (Nat.repeat negate 123 p).canonical)
      ∧ ¬ ∃ j, Json.ofText? (Nat.repeat negate 124 p).canonical.toText = some j := by
  intro half p
  have hfloats : ∀ n x, Value.float x ∈ (Nat.repeat negate n p).constants →
      Json.ofText? (Json.number (.float x)).toText = some (.number (.float x)) := by
    intro n x hx
    obtain rfl : x = half := by
      simpa [constants, leaves_repeat_negate, p, leaves, leavesAll, leafConstants] using hx
    have hdigits : half.written.significand ≤ 0x20000000000000 := by decide +kernel
    have hplace : half.written.exponent.natAbs ≤ 22 := by decide +kernel
    exact (Number.legible_float_iff.2 (Double.reread?_of_exact hdigits hplace)).ofText?_toText
  have hdeep : p.nesting = 4 := by decide
  have hshallow := ofText?_toText_canonical (Nat.repeat negate 123 p) (hfloats 123)
  refine ⟨hshallow.1.2 ?_, hshallow.2, fun hread => ?_⟩
  · rw [nesting_repeat_negate, hdeep]
  · have hnesting := (ofText?_toText_canonical (Nat.repeat negate 124 p) (hfloats 124)).1.1 hread
    rw [nesting_repeat_negate, hdeep] at hnesting
    exact absurd hnesting (by decide)

end Predicate

end FilterTree
