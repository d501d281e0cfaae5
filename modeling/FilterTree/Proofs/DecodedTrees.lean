import FilterTree.Proofs.CanonicalForm
import FilterTree.Proofs.TextDecoding

/-!
# What decoding settles

A tree can be spelled in many ways: with its entries in any order, with
entries that say nothing between them, as arrays, with operators that go by
their place below the root. None of that is left in a tree that has been
decoded (`Predicate.IsDecoded`). Its leaves mean something, or they would have
been refused, and its values are normal, because a spelling denotes no others
(`Json.Denotes.normalize_eq`). These are the trees that the canonical form
gives back as they are, and there are no others (`Predicate.isDecoded_iff`).

The canonical form itself is one of the spellings, and a **plain** one
(`Json.IsPlain`). Every node is an object, the operator goes by its name, and
there is nothing in the object but the operator and its fields. So whoever
takes in a tree in whatever spelling and gives it out again gives out the
plain one, and taking that in changes nothing any more
(`Predicate.ofCanonical_canonical_of_isDecoded`).
-/

namespace FilterTree

namespace Json

/-! ## What spellings denote -/

/-- A document denotes normal values. -/
theorem DenotesValue.normalize_eq {j : Json} {v : Value} (h : j.DenotesValue v) :
    v.normalize = v := by
  cases h with
  | uint n large =>
    refine Value.normalize_eq_self fun m hm => ?_
    rwa [← Value.uint.inj hm]
  | null => rfl
  | bool b => rfl
  | int n => rfl
  | float x => rfl
  | text s => rfl

/-- A node has parts that denote it, be it an object or an array. -/
theorem Denotes.exists_parts {j : Json} {place : Place} {p : Predicate} (h : j.Denotes place p) :
    ∃ operator parts, PartsDenote operator parts p := by
  cases h with
  | object _ _ _ hparts => exact ⟨_, _, hparts⟩
  | array _ hparts => exact ⟨_, _, hparts⟩

/-- **A document denotes normal trees.** -/
theorem Denotes.normalize_eq {j : Json} {place : Place} {p : Predicate} (h : j.Denotes place p) :
    p.normalize = p := by
  induction p generalizing j place with
  | compare relation key value =>
    obtain ⟨operator, parts, hparts⟩ := h.exists_parts
    cases hparts with
    | compare hvalue => rw [Predicate.normalize, hvalue.normalize_eq]
  | member key values =>
    obtain ⟨operator, parts, hparts⟩ := h.exists_parts
    cases hparts with
    | member hvalues =>
      have hnormal : ∀ v ∈ values, v.normalize = v := by
        intro v hv
        obtain ⟨j, -, hj⟩ := exists_of_forall₂_of_mem_right hvalues hv
        exact hj.normalize_eq
      rw [Predicate.normalize, List.map_congr_left hnormal, List.map_id']
  | join connective conditions ih =>
    obtain ⟨operator, parts, hparts⟩ := h.exists_parts
    cases hparts with
    | join hconditions =>
      have hnormal : ∀ p ∈ conditions, p.normalize = p := by
        intro p hp
        obtain ⟨j, -, hj⟩ := exists_of_forall₂_of_mem_right hconditions hp
        exact ih p hp hj
      rw [Predicate.normalize, Predicate.normalizeAll_eq_map, List.map_congr_left hnormal,
        List.map_id']
  | negate condition ih =>
    obtain ⟨operator, parts, hparts⟩ := h.exists_parts
    cases hparts with
    | negate hcondition => rw [Predicate.normalize, ih hcondition]

/-! ## Plain spellings -/

mutual

/-- **A plain spelling** of a tree: an object of the operator of the root,
under its name, and of the fields of that operator, with nothing else in it.
The same holds of the nodes below. -/
inductive IsPlain : Json → Predicate → Prop
  /-- An object with a name for every part, and a part for every name. -/
  | node {entries : List (String × Json)} {parts : List Json} {p : Predicate}
    (names : (entries.map Prod.fst).Perm ("op" :: p.operator.fields))
    (op : ("op", .text p.operator.name) ∈ entries)
    (fields : List.Forall₂ (fun name part => (name, part) ∈ entries) p.operator.fields parts)
    (parts_plain : PartsArePlain parts p) : IsPlain (.object entries) p

/-- **The parts of a plain spelling**, in the order of the fields. -/
inductive PartsArePlain : List Json → Predicate → Prop
  /-- The key and the document of the value. -/
  | compare (relation : Relation) (key : String) (value : Value) :
    PartsArePlain [.text key, value.toJson] (.compare relation key value)
  /-- The key and the documents of the values in order. -/
  | member (key : String) (values : List Value) :
    PartsArePlain [.text key, .array (values.map Value.toJson)] (.member key values)
  /-- Plain spellings of the conditions in order. -/
  | join {connective : Connective} {items : List Json} {ps : List Predicate}
    (conditions : List.Forall₂ IsPlain items ps) :
    PartsArePlain [.array items] (.join connective ps)
  /-- A plain spelling of the condition. -/
  | negate {j : Json} {p : Predicate} (condition : IsPlain j p) : PartsArePlain [j] (.negate p)

end

end Json

namespace Predicate

open Json (IsPlain PartsArePlain)

/-- **The canonical form is plain.** -/
theorem canonical_isPlain (p : Predicate) : p.canonical.IsPlain p := by
  induction p with
  | compare relation key value =>
    rw [canonical]
    exact .node (.swap ..) (by simp [operator])
      (.cons (by simp) (.cons (by simp) .nil)) (.compare relation key value)
  | member key values =>
    rw [canonical]
    exact .node (.swap ..) (by simp [operator])
      (.cons (by simp) (.cons (by simp) .nil)) (.member key values)
  | join connective conditions ih =>
    rw [canonical, canonicals_eq_map]
    have hconditions : List.Forall₂ IsPlain (conditions.map canonical) conditions := by
      rw [List.forall₂_map_left_iff, List.forall₂_same]
      exact ih
    exact .node (.swap ..) (by simp [operator]) (.cons (by simp) .nil) (.join hconditions)
  | negate condition ih =>
    rw [canonical]
    exact .node (.swap ..) (by simp [operator]) (.cons (by simp) .nil) (.negate ih)

/-! ## Decoded trees -/

/-- **A tree that something is decoded to**, a document or a text. -/
inductive IsDecoded (p : Predicate) : Prop
  /-- A document is decoded to it. -/
  | document {j : Json} (decoded : (Traced.outcome (ofCanonical j).run).1 = .ok p)
  /-- A text is decoded to it. -/
  | text {text : String} (decoded : (ofText text).outcome.1 = .ok p)

/-- What is decoded is denoted by a document, and its leaves mean
something. -/
theorem IsDecoded.exists_denotes {p : Predicate} (h : p.IsDecoded) :
    (∃ j : Json, j.Denotes .root p) ∧ p.IsMeaningful := by
  cases h with
  | document hdecoded =>
    obtain ⟨hshape, hmeaningful⟩ := outcome_ofCanonical_eq_ok_iff.1 hdecoded
    exact ⟨⟨_, ofNode_eq_ok_iff.1 hshape⟩, hmeaningful⟩
  | text hdecoded =>
    obtain ⟨j, -, hdenotes, hmeaningful⟩ := outcome_ofText_eq_ok_iff_denotes.1 hdecoded
    exact ⟨⟨j, hdenotes⟩, hmeaningful⟩

/-- The canonical form of a normal tree whose leaves mean something is decoded
to that tree, and nothing is logged. -/
theorem outcome_ofCanonical_canonical {p : Predicate} (hnormal : p.normalize = p)
    (hmeaningful : p.IsMeaningful) :
    Traced.outcome (ofCanonical p.canonical).run = (.ok p, []) := by
  refine outcome_ofCanonical_of_isMeaningful ?_ hmeaningful
  rw [ofShape_canonical, hnormal]

/-- **The trees that something is decoded to** are the normal ones whose
leaves mean something. -/
theorem isDecoded_iff {p : Predicate} : p.IsDecoded ↔ p.normalize = p ∧ p.IsMeaningful := by
  constructor
  · intro h
    obtain ⟨⟨j, hj⟩, hmeaningful⟩ := h.exists_denotes
    exact ⟨hj.normalize_eq, hmeaningful⟩
  · rintro ⟨hnormal, hmeaningful⟩
    exact .document (congrArg Prod.fst (outcome_ofCanonical_canonical hnormal hmeaningful))

/-- **Decoding settles the spelling.** What has been decoded comes back from
its canonical form as it is, with nothing logged, and the canonical form is
its plain spelling. -/
theorem ofCanonical_canonical_of_isDecoded {p : Predicate} (h : p.IsDecoded) :
    Traced.outcome (ofCanonical p.canonical).run = (.ok p, []) ∧ p.canonical.IsPlain p := by
  obtain ⟨hnormal, hmeaningful⟩ := isDecoded_iff.1 h
  exact ⟨outcome_ofCanonical_canonical hnormal hmeaningful, p.canonical_isPlain⟩

/-- A negation of a conjunction, with entries that say nothing, nodes that are
arrays, operators by their places and integers of both kinds. -/
theorem ofCanonical_canonical_of_isDecoded_of_odd_spelling :
    let j : Json := .object [
      ("x", .null),
      ("condition", .array [.number (.integer 4 (by decide) (by decide)), .array [
        .array [.text "EQ", .text "k", .number (.integer 42 (by decide) (by decide))],
        .object [
          ("values", .array [.number (.integer 0xFFFFFFFFFFFFFFFF (by decide) (by decide))]),
          ("op", .number (.integer 1 (by decide) (by decide))),
          ("key", .text "k")]]]),
      ("op", .text "NOT")]
    let p : Predicate := .negate (.join .and
      [.compare .equal "k" (.int 42), .member "k" [.uint 0xFFFFFFFFFFFFFFFF]])
    (Traced.outcome (ofCanonical j).run).1 = .ok p
      ∧ Traced.outcome (ofCanonical p.canonical).run = (.ok p, []) ∧ p.canonical.IsPlain p := by
  intro j p
  have hdecoded : (Traced.outcome (ofCanonical j).run).1 = .ok p := by
    refine outcome_ofCanonical_eq_ok_iff.2 ⟨rfl, ?_⟩
    simp [p, IsMeaningful, leaves, leavesAll, key?, values?]
  exact ⟨hdecoded, ofCanonical_canonical_of_isDecoded (.document hdecoded)⟩

end Predicate

end FilterTree
