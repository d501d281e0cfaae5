import FilterTree.Predicate.Basic
import Mathlib.Data.List.Basic

/-!
# The leaves of a tree

What is asked of a tree is mostly asked of its leaves: that no key is
empty, that no list to look up in is empty, that every value is normal.
This module lists the leaves of a tree from left to right
(`Predicate.leaves`) and the values in them (`Predicate.constants`), so
that such a property is one statement about a list.

A tree holds lists of trees, and the functions on trees come in pairs, one
for a tree and one for a list. The second of each pair is the first on
every member, and inductions go by `Predicate.tree_induction`, whose case of
a join has the statement for all conditions at once.
-/

namespace FilterTree

namespace Predicate

/-- **Induction on trees**: a statement that holds of leaves, of a join
when it holds of all its conditions, and of a negation when it holds of its
condition, holds of every tree. -/
@[elab_as_elim, induction_eliminator]
theorem tree_induction {motive : Predicate → Prop}
    (compare : ∀ relation key value, motive (.compare relation key value))
    (member : ∀ key values, motive (.member key values))
    (join : ∀ connective conditions, (∀ p ∈ conditions, motive p) →
      motive (.join connective conditions))
    (negate : ∀ condition, motive condition → motive (.negate condition))
    (p : Predicate) : motive p := by
  refine @Predicate.rec motive (fun ps => ∀ p ∈ ps, motive p)
    compare member join negate ?_ ?_ p
  · intro p hp
    exact absurd hp List.not_mem_nil
  · intro p ps hp hps q hq
    rcases List.mem_cons.1 hq with rfl | hq
    · exact hp
    · exact hps q hq

/-! ## Leaves and constants -/

mutual

/-- **The leaves** of a tree, from left to right. -/
def leaves : Predicate → List Predicate
  | .compare relation key value => [.compare relation key value]
  | .member key values => [.member key values]
  | .join _ conditions => leavesAll conditions
  | .negate condition => leaves condition

/-- The leaves of several trees. -/
def leavesAll : List Predicate → List Predicate
  | [] => []
  | p :: rest => leaves p ++ leavesAll rest

end

@[simp] theorem leavesAll_eq_flatMap (ps : List Predicate) : leavesAll ps = ps.flatMap leaves := by
  induction ps with
  | nil => rfl
  | cons p ps ih => rw [leavesAll, ih, List.flatMap_cons]

/-- **What holds of the leaves of a join** holds of those of its
conditions. -/
theorem forall_mem_leaves_join_iff {P : Predicate → Prop} {connective : Connective}
    {conditions : List Predicate} :
    (∀ leaf ∈ (join connective conditions).leaves, P leaf)
      ↔ ∀ p ∈ conditions, ∀ leaf ∈ p.leaves, P leaf := by
  rw [leaves, leavesAll_eq_flatMap]
  exact List.forall_mem_flatMap

/-- The values in a leaf, in order. -/
def leafConstants : Predicate → List Value
  | .compare _ _ value => [value]
  | .member _ values => values
  | .join _ _ => []
  | .negate _ => []

/-- **The constants** of a tree: the values in its leaves, from left to
right. -/
def constants (p : Predicate) : List Value := p.leaves.flatMap leafConstants

@[simp] theorem constants_compare (relation : Relation) (key : String) (value : Value) :
    (compare relation key value).constants = [value] := by
  rfl

@[simp] theorem constants_member (key : String) (values : List Value) :
    (member key values).constants = values := by
  simp only [constants, leaves, List.flatMap_singleton, leafConstants]

@[simp] theorem mem_constants_join {connective : Connective} {conditions : List Predicate}
    {v : Value} :
    v ∈ (join connective conditions).constants ↔ ∃ p ∈ conditions, v ∈ p.constants := by
  unfold constants
  rw [leaves, leavesAll_eq_flatMap, List.flatMap_assoc, List.mem_flatMap]

/-! ## Meaningful trees -/

/-- **A meaningful tree**: no leaf has the empty key, and none looks up in
the empty list. -/
def IsMeaningful (p : Predicate) : Prop :=
  ∀ leaf ∈ p.leaves, leaf.key? ≠ some "" ∧ leaf.values? ≠ some []

/-! ## Normal trees -/

@[simp] theorem leaves_normalize (p : Predicate) : p.normalize.leaves = p.leaves.map normalize := by
  induction p with
  | compare relation key value => rfl
  | member key values => rfl
  | join connective conditions ih =>
    rw [normalize, normalizeAll_eq_map, leaves, leaves, leavesAll_eq_flatMap, leavesAll_eq_flatMap,
      List.map_flatMap, List.flatMap_map]
    exact List.flatMap_congr ih
  | negate condition ih => rw [normalize, leaves, leaves, ih]

/-- **Normalizing keeps what is meaningful** and adds nothing to it. -/
@[simp] theorem isMeaningful_normalize_iff (p : Predicate) :
    p.normalize.IsMeaningful ↔ p.IsMeaningful := by
  unfold IsMeaningful
  rw [leaves_normalize]
  simp only [List.forall_mem_map, key?_normalize, values?_normalize]
  refine forall₂_congr fun leaf _ => and_congr_right fun _ => not_congr ?_
  cases leaf.values? with
  | none => simp
  | some values => simp

end Predicate

/-- A value is normal unless it is an unsigned word that a signed one could
hold. -/
theorem Value.normalize_eq_self {v : Value} (h : ∀ n, v = .uint n → 0x8000000000000000 ≤ n.toNat) :
    v.normalize = v := by
  cases v with
  | uint n =>
    have hn := h n rfl
    rw [normalize, ofUInt64, if_neg (by omega)]
  | null => rfl
  | bool b => rfl
  | int n => rfl
  | float x => rfl
  | text s => rfl

/-- **What normalizing does to a value**: an unsigned word that a signed one
could hold becomes the signed word of the same number, and everything else
stays as it is. -/
theorem Value.normalize_cases (v : Value) :
    (∃ (n : UInt64) (m : Int64), v = .uint n ∧ m.toInt = n.toNat ∧ v.normalize = .int m)
      ∨ ((∀ n, v = .uint n → 0x8000000000000000 ≤ n.toNat) ∧ v.normalize = v) := by
  by_cases hv : ∀ n, v = .uint n → 0x8000000000000000 ≤ n.toNat
  · exact Or.inr ⟨hv, normalize_eq_self hv⟩
  · push Not at hv
    obtain ⟨n, rfl, hn⟩ := hv
    refine Or.inl ⟨n, Int64.ofInt n.toNat, rfl, ?_, ?_⟩
    · exact Int64.toInt_ofInt_of_le (by omega) (by omega)
    · rw [normalize, ofUInt64, if_pos (by omega)]

/-- **A tree whose values are normal** is its own normal form. -/
theorem Predicate.normalize_eq_self {p : Predicate} (h : ∀ v ∈ p.constants, v.normalize = v) :
    p.normalize = p := by
  induction p with
  | compare relation key value =>
    rw [constants_compare, List.forall_mem_singleton] at h
    rw [normalize, h]
  | member key values =>
    have hvalues : ∀ v ∈ values, v.normalize = id v := by
      rwa [constants_member] at h
    rw [normalize, List.map_congr_left hvalues, List.map_id]
  | join connective conditions ih =>
    have hconditions : ∀ p ∈ conditions, p.normalize = id p := by
      intro p hp
      exact ih p hp fun v hv => h v (mem_constants_join.2 ⟨p, hp, hv⟩)
    rw [normalize, normalizeAll_eq_map, List.map_congr_left hconditions, List.map_id]
  | negate condition ih => rw [normalize, ih h]

end FilterTree
