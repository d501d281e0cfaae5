import FilterTree.Predicate.Canonical
import FilterTree.Proofs.Grammar

/-!
# The canonical form as a document of the grammar

The canonical form of a tree denotes the normal form of the tree, wherever
it stands (`Predicate.canonical_denotes`). So decoding it gives the normal
form back, and the only trees it does not give back are those with a leaf
that means nothing (`Predicate.ofCanonical_canonical`). Nothing is assumed
of the tree: a join of no conditions, a list with repetitions, a zero with
a sign all come back as they were.
-/

namespace FilterTree

open Json (SoleEntry)

theorem Value.toJson_denotesValue (v : Value) : v.toJson.DenotesValue v.normalize :=
  Json.ofJson_eq_ok_iff.1 (ofJson_toJson v)

@[simp] theorem Value.toJson_normalize (v : Value) : v.normalize.toJson = v.toJson := by
  rcases v.normalize_cases with ⟨n, m, rfl, hm, hnormal⟩ | ⟨-, hnormal⟩
  · rw [hnormal]
    simp only [toJson, hm]
  · rw [hnormal]

namespace Predicate

/-- **The canonical form denotes the normal form**, at the root and below
other nodes. -/
theorem canonical_denotes (p : Predicate) (place : Place) :
    p.canonical.Denotes place p.normalize := by
  induction p generalizing place with
  | compare relation key value =>
    rw [canonical, normalize]
    have hop : SoleEntry [("key", .text key), ("op", .text (Operator.compare relation).name),
        ("value", value.toJson)] "op" (.text (Operator.compare relation).name) := rfl
    exact .object hop (.name place _) (.cons rfl (.cons rfl .nil))
      (.compare value.toJson_denotesValue)
  | member key values =>
    rw [canonical, normalize]
    have hvalues : List.Forall₂ Json.DenotesValue (values.map Value.toJson)
        (values.map Value.normalize) := by
      rw [List.forall₂_map_left_iff, List.forall₂_map_right_iff, List.forall₂_same]
      exact fun v _ => v.toJson_denotesValue
    have hop : SoleEntry [("key", .text key), ("op", .text Operator.member.name),
        ("values", .array (values.map Value.toJson))] "op" (.text Operator.member.name) := rfl
    exact .object hop (.name place _) (.cons rfl (.cons rfl .nil)) (.member hvalues)
  | join connective conditions ih =>
    rw [canonical, canonicals_eq_map, normalize, normalizeAll_eq_map]
    have hconditions : List.Forall₂ (fun j p => Json.Denotes j .child p)
        (conditions.map canonical) (conditions.map normalize) := by
      rw [List.forall₂_map_left_iff, List.forall₂_map_right_iff, List.forall₂_same]
      exact fun p hp => ih p hp .child
    have hop : SoleEntry [("conditions", .array (conditions.map canonical)),
        ("op", .text (Operator.join connective).name)] "op"
        (.text (Operator.join connective).name) := rfl
    exact .object hop (.name place _) (.cons rfl .nil) (.join hconditions)
  | negate condition ih =>
    rw [canonical, normalize]
    have hop : SoleEntry [("condition", condition.canonical), ("op", .text Operator.negate.name)]
        "op" (.text Operator.negate.name) := rfl
    exact .object hop (.name place _) (.cons rfl .nil) (.negate (ih .child))

@[simp] theorem ofShape_canonical (p : Predicate) : ofShape p.canonical = .ok p.normalize :=
  ofNode_eq_ok_iff.2 (p.canonical_denotes .root)

@[simp] theorem canonical_normalize (p : Predicate) : p.normalize.canonical = p.canonical := by
  induction p with
  | compare relation key value => rw [normalize, canonical, canonical, Value.toJson_normalize]
  | member key values =>
    rw [normalize, canonical, canonical, List.map_map]
    simp only [Function.comp_def, Value.toJson_normalize]
  | join connective conditions ih =>
    have hconditions : conditions.map (canonical ∘ normalize) = conditions.map canonical :=
      List.map_congr_left ih
    rw [normalize, canonical, canonical, canonicals_eq_map, canonicals_eq_map, normalizeAll_eq_map,
      List.map_map, hconditions]
  | negate condition ih => rw [normalize, canonical, canonical, ih]

/-- **Canonical forms are one document** exactly when the trees have one
normal form. -/
theorem canonical_eq_iff {p q : Predicate} :
    p.canonical = q.canonical ↔ p.normalize = q.normalize := by
  constructor
  · intro h
    -- the shape of the document is the normal form of either tree
    refine Except.ok.inj (p.ofShape_canonical.symm.trans ?_)
    rw [h, ofShape_canonical]
  · intro h
    rw [← p.canonical_normalize, h, canonical_normalize]

/-- **A tree comes back from its canonical form** exactly when every leaf
means something, and then in its normal form: as it was, but with every
unsigned word that a signed one can hold turned into the signed word of the
same number. -/
theorem ofCanonical_canonical (p : Predicate) :
    ((∃ q, (Traced.outcome (ofCanonical p.canonical).run).1 = .ok q) ↔ p.IsMeaningful)
      ∧ (∀ q, (Traced.outcome (ofCanonical p.canonical).run).1 = .ok q → q = p.normalize)
      ∧ ∀ v : Value,
        (∃ (n : UInt64) (m : Int64), v = .uint n ∧ m.toInt = n.toNat ∧ v.normalize = .int m)
          ∨ ((∀ n, v = .uint n → 0x8000000000000000 ≤ n.toNat) ∧ v.normalize = v) := by
  simp only [outcome_ofCanonical_eq_ok_iff, ofShape_canonical, Except.ok.injEq]
  refine ⟨⟨?_, fun h => ⟨p.normalize, rfl, p.isMeaningful_normalize_iff.2 h⟩⟩,
    fun q h => h.1.symm, Value.normalize_cases⟩
  rintro ⟨q, rfl, h⟩
  exact p.isMeaningful_normalize_iff.1 h

end Predicate

end FilterTree
