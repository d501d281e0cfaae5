import FilterTree.Proofs.Equality
import FilterTree.Proofs.LicensedLeaves

/-!
# Trees built under the strict policy

A tree is **built strictly** if its leaves are built under the strict policy
out of any operands and if it is put together by composition only. Such a
tree is meaningful, so its canonical form is always decoded, and what it is
decoded to is the normal form of the tree.

That is equal to the tree if and only if every unsigned word in the tree is
one that no signed word can hold (`Predicate.exists_same_ofCanonical_iff`).
Operands that are numbers are normalized when a leaf is built, but a ready
value is taken as it is. So a tree may be built strictly and still hold an
unsigned 42, and that one is decoded to a tree with the signed 42, which is
another value (`Predicate.not_forall_isBuiltStrictly_same`).
-/

namespace FilterTree

/-! ## Equality and normal form -/

theorem isEqv_map_iff {α : Type} {test : α → α → Bool} {f : α → α} {as : List α} :
    (as.map f).isEqv as test = true ↔ ∀ a ∈ as, test (f a) a = true := by
  induction as with
  | nil => exact iff_of_true rfl (List.forall_mem_nil _)
  | cons a as ih => rw [List.map_cons, List.isEqv, Bool.and_eq_true, ih, List.forall_mem_cons]

/-- **A value is equal to its normal form** unless it is an unsigned word
that a signed one could hold. -/
theorem Value.normalize_same_iff (v : Value) :
    v.normalize.same v = true ↔ ∀ n, v = .uint n → 0x8000000000000000 ≤ n.toNat := by
  rcases v.normalize_cases with ⟨n, m, rfl, hm, hnormal⟩ | ⟨hlarge, hnormal⟩
  · rw [hnormal]
    refine iff_of_false nofun fun h => ?_
    have hn := h n rfl
    have hm' := m.toInt_lt
    omega
  · rw [hnormal]
    exact iff_of_true (same_iff.2 rfl) hlarge

namespace Predicate

/-- **A tree is equal to its normal form** if every value in it is equal to
its own. -/
theorem normalize_same_iff (p : Predicate) :
    p.normalize.same p = true ↔ ∀ v ∈ p.constants, v.normalize.same v = true := by
  induction p with
  | compare relation key value =>
    rw [constants_compare, List.forall_mem_singleton]
    simp [normalize, same]
  | member key values =>
    rw [constants_member, ← isEqv_map_iff, ← sameValues_eq_isEqv]
    simp [normalize, same]
  | join connective conditions ih =>
    have hconditions : sameAll (conditions.map normalize) conditions = true
        ↔ ∀ p ∈ conditions, ∀ v ∈ p.constants, v.normalize.same v = true := by
      rw [sameAll_eq_isEqv, isEqv_map_iff]
      exact forall₂_congr ih
    simp only [normalize, normalizeAll_eq_map, same, beq_self_eq_true, Bool.true_and, hconditions,
      mem_constants_join]
    constructor
    · rintro h v ⟨p, hp, hv⟩
      exact h p hp v hv
    · intro h p hp v hv
      exact h v ⟨p, hp, hv⟩
  | negate condition ih =>
    rw [normalize, same, ih]
    rfl

/-! ## Building strictly -/

/-- **A tree that is built strictly**: its leaves are built under the strict
policy, and it is put together by composition. -/
inductive IsBuiltStrictly : Predicate → Prop
  /-- A leaf that compares. -/
  | compare {relation : Relation} {key : String} {operand : Operand} {p : Predicate}
    (built : (Traced.outcome (Policy.strict.comparison relation key operand).run).1 = .ok p) :
    IsBuiltStrictly p
  /-- A leaf that looks up in a list. -/
  | member {key : String} {operands : List Operand} {p : Predicate}
    (built : (Traced.outcome (Policy.strict.membership key operands).run).1 = .ok p) :
    IsBuiltStrictly p
  /-- Two trees joined. -/
  | pair (connective : Connective) {p q : Predicate} (left : IsBuiltStrictly p)
    (right : IsBuiltStrictly q) : IsBuiltStrictly (.pair connective p q)
  /-- A tree joined with another one, if there is another. -/
  | pairOption (connective : Connective) {p : Predicate} {other : Option Predicate}
    (left : IsBuiltStrictly p) (right : ∀ q ∈ other, IsBuiltStrictly q) :
    IsBuiltStrictly (.pairOption connective p other)
  /-- Any number of trees joined. -/
  | join (connective : Connective) {ps : List Predicate} (all : ∀ p ∈ ps, IsBuiltStrictly p) :
    IsBuiltStrictly (.join connective ps)
  /-- A tree negated. -/
  | negate {p : Predicate} (operand : IsBuiltStrictly p) : IsBuiltStrictly (.negate p)

/-- **A tree that is built strictly is meaningful**, since the strict policy
has no licence to give. -/
theorem IsBuiltStrictly.isMeaningful {p : Predicate} (h : p.IsBuiltStrictly) : p.IsMeaningful := by
  rw [← isLicensed_false_iff]
  induction h with
  | compare built => exact isLicensed_of_comparison built nofun
  | member built => exact isLicensed_of_membership built nofun nofun
  | pair connective _ _ ihp ihq => exact ihp.pair ihq connective
  | pairOption connective _ _ ihp ihq => exact ihp.pairOption ihq connective
  | join connective _ ih => exact isLicensed_join_iff.2 ih
  | negate _ ih => exact isLicensed_negate_iff.2 ih

/-! ## The round trip -/

/-- **A tree that is built strictly is decoded from its canonical form**, and
to a tree equal to it exactly when it holds no unsigned word that a signed
one could hold. -/
theorem exists_same_ofCanonical_iff (p : Predicate) (h : p.IsBuiltStrictly) :
    ∃ q, (Traced.outcome (ofCanonical p.canonical).run).1 = .ok q
      ∧ (q.same p = true ↔ ∀ n, .uint n ∈ p.constants → 0x8000000000000000 ≤ n.toNat) := by
  refine ⟨p.normalize, ?_, ?_⟩
  · rw [outcome_ofCanonical_eq_ok_iff]
    exact ⟨p.ofShape_canonical, p.isMeaningful_normalize_iff.2 h.isMeaningful⟩
  · simp only [normalize_same_iff, Value.normalize_same_iff]
    exact ⟨fun hall n hn => hall _ hn n rfl, fun hall v hv n hn => hall n (hn ▸ hv)⟩

/-- A conjunction built out of a signed zero and a large unsigned number is
decoded to a tree equal to it. -/
theorem exists_same_ofCanonical_iff_of_large_operand :
    let p : Predicate := .pair .and (.compare .greater "t" (.float ⟨true, 0, by decide⟩))
      (.negate (.member "k" [.uint 0x8000000000000000, .null]))
    p.IsBuiltStrictly ∧ ∃ q, (Traced.outcome (ofCanonical p.canonical).run).1 = .ok q
      ∧ (q.same p = true ↔ ∀ n, .uint n ∈ p.constants → 0x8000000000000000 ≤ n.toNat) := by
  intro p
  have hzero : (compare .greater "t" (.float ⟨true, 0, by decide⟩)).IsBuiltStrictly :=
    .compare (Policy.run_comparison_eq_ok_iff.2 ⟨nofun, _, rfl, rfl⟩ :
      (Traced.outcome (Policy.strict.comparison .greater "t"
        (.double 0x8000000000000000)).run).1 = _)
  have hlist : (member "k" [.uint 0x8000000000000000, .null]).IsBuiltStrictly :=
    .member (Policy.run_membership_eq_ok_iff.2 ⟨nofun, by decide, nofun, rfl⟩ :
      (Traced.outcome (Policy.strict.membership "k"
        [.uint64 0x8000000000000000, .absent]).run).1 = _)
  have hbuilt : p.IsBuiltStrictly := .pair .and hzero (.negate hlist)
  exact ⟨hbuilt, exists_same_ofCanonical_iff p hbuilt⟩

/-- **Not every tree that is built strictly comes back equal**: a ready
unsigned 42 is decoded to the signed 42. -/
theorem not_forall_isBuiltStrictly_same :
    ¬ ∀ p : Predicate, p.IsBuiltStrictly →
      ∃ q, (Traced.outcome (ofCanonical p.canonical).run).1 = .ok q ∧ q.same p = true := by
  intro h
  have hbuilt : (compare .equal "k" (.uint 42)).IsBuiltStrictly :=
    .compare (Policy.run_comparison_eq_ok_iff.2 ⟨nofun, _, rfl, rfl⟩ :
      (Traced.outcome (Policy.strict.comparison .equal "k" (.value (.uint 42))).run).1 = _)
  obtain ⟨q, hq, hsame⟩ := h _ hbuilt
  rw [outcome_ofCanonical_eq_ok_iff, ofShape_canonical] at hq
  obtain rfl : _ = q := Except.ok.inj hq.1
  exact absurd hsame (by decide)

end Predicate

end FilterTree
