import FilterTree.Proofs.Grammar

/-!
# Mappings and what else is decoded

The documented spelling of a tree is a **mapping** at every node
(`Json.IsMapping`): an object that has the name of the operator under `op`,
the fields of that operator, and spellings of the same kind for the
conditions. It may have other entries besides.

The decoder takes more than that. A spelling **strays** from the mappings
(`Json.Strays`) when some node of it is an array, or when the operator of some
node goes by its place in the order. These are the only two ways. Whatever is
decoded is a mapping unless it strays, and it is refused as undecodable if it
is neither. The root does not stray as far as the nodes below it, for it
always has the name of its operator
(`Predicate.ofCanonical_mapping_or_strays`).
-/

namespace FilterTree

namespace Predicate

/-- **Induction on conditions**: a statement that holds of a tree when it holds
of all its conditions holds of every tree. -/
theorem children_induction {motive : Predicate → Prop}
    (step : ∀ p : Predicate, (∀ q ∈ p.children, motive q) → motive p) (p : Predicate) :
    motive p := by
  induction p with
  | compare relation key value => exact step _ (List.forall_mem_nil _)
  | member key values => exact step _ (List.forall_mem_nil _)
  | join connective conditions ih => exact step _ ih
  | negate condition ih => exact step _ (List.forall_mem_singleton.2 ih)

end Predicate

namespace Json

/-- **The documents of the conditions** of a tree among the entries of its
node, in their order. -/
def ConditionsAmong (entries : List (String × Json)) : Predicate → List Json → Prop
  | .compare _ _ _, js => js = []
  | .member _ _, js => js = []
  | .join _ _, js => SoleEntry entries "conditions" (.array js)
  | .negate _, js => ∃ j, SoleEntry entries "condition" j ∧ js = [j]

/-- **A mapping**: an object with the name of the operator and an entry for
each of its fields, and mappings for the conditions. -/
inductive IsMapping : Json → Predicate → Prop
  /-- A node and the nodes below it. -/
  | node {entries : List (String × Json)} {js : List Json} {p : Predicate}
    (op : SoleEntry entries "op" (.text p.operator.name))
    (fields : ∀ name ∈ p.operator.fields, ∃ part, SoleEntry entries name part)
    (among : ConditionsAmong entries p js) (conditions : List.Forall₂ IsMapping js p.children) :
    IsMapping (.object entries) p

/-- **A spelling that strays** from the mappings, at the root of the tree or
further down. -/
inductive Strays : Json → Predicate → Prop
  /-- The node is an array. -/
  | array {items : List Json} {p : Predicate} : Strays (.array items) p
  /-- The operator of the node is a number. -/
  | index {entries : List (String × Json)} {n : Number} {p : Predicate}
    (op : SoleEntry entries "op" (.number n)) : Strays (.object entries) p
  /-- The spelling of a condition strays. -/
  | condition {entries : List (String × Json)} {js : List Json} {p q : Predicate} {j : Json}
    (among : ConditionsAmong entries p js) (mem : (j, q) ∈ js.zip p.children)
    (strays : Strays j q) : Strays (.object entries) p

theorem ConditionsAmong.unique {entries : List (String × Json)} {p : Predicate}
    {is js : List Json} (hi : ConditionsAmong entries p is) (hj : ConditionsAmong entries p js) :
    is = js := by
  cases p with
  | compare relation key value => exact hi.trans hj.symm
  | member key values => exact hi.trans hj.symm
  | join connective conditions => exact Json.array.inj (SoleEntry.unique hi hj)
  | negate condition =>
    obtain ⟨i, hi, rfl⟩ := hi
    obtain ⟨j, hj, rfl⟩ := hj
    rw [hi.unique hj]

/-- **A mapping does not stray.** -/
theorem IsMapping.not_strays {j : Json} {p : Predicate} (h : j.IsMapping p) : ¬ j.Strays p := by
  induction p using Predicate.children_induction generalizing j with
  | step p ih =>
    cases h with
    | node hop _ hamong hconditions =>
      intro hstrays
      cases hstrays with
      | index hindex => cases hop.unique hindex
      | condition hamong' hmem hstrays =>
        obtain rfl := hamong.unique hamong'
        have hmapping := List.forall₂_zip hconditions hmem
        exact ih _ (List.of_mem_zip hmem).2 hmapping hstrays

theorem PartsDenote.operator_eq {operator : Operator} {parts : List Json} {p : Predicate}
    (h : PartsDenote operator parts p) : p.operator = operator := by
  cases h <;> rfl

/-- The fields of a node have the documents of the conditions, and these
denote the conditions. -/
theorem PartsDenote.exists_conditionsAmong {entries : List (String × Json)} {operator : Operator}
    {parts : List Json} {p : Predicate} (h : PartsDenote operator parts p)
    (hfields : List.Forall₂ (SoleEntry entries) operator.fields parts) :
    ∃ js, ConditionsAmong entries p js
      ∧ List.Forall₂ (fun j q => j.Denotes .child q) js p.children := by
  cases h with
  | compare => exact ⟨[], rfl, .nil⟩
  | member => exact ⟨[], rfl, .nil⟩
  | join hconditions => exact ⟨_, (List.forall₂_cons.1 hfields).1, hconditions⟩
  | negate hcondition =>
    exact ⟨[_], ⟨_, (List.forall₂_cons.1 hfields).1, rfl⟩, .cons hcondition .nil⟩

/-- **What denotes a tree and does not stray** is a mapping. -/
theorem Denotes.isMapping {j : Json} {place : Place} {p : Predicate} (h : j.Denotes place p)
    (hstrays : ¬ j.Strays p) : j.IsMapping p := by
  induction p using Predicate.children_induction generalizing j place with
  | step p ih =>
    cases h with
    | array => exact absurd .array hstrays
    | @object _ entries tag _ _ _ hop htag hfields hparts =>
      have hname : tag = .text p.operator.name := by
        rw [hparts.operator_eq]
        cases htag with
        | name => rfl
        | index => exact absurd (.index hop) hstrays
      obtain ⟨js, hamong, hdenotes⟩ := hparts.exists_conditionsAmong hfields
      refine .node (hname ▸ hop) (fun name hmem => ?_) hamong ?_
      · rw [hparts.operator_eq] at hmem
        obtain ⟨part, -, hpart⟩ := exists_of_forall₂_of_mem_right hfields.flip hmem
        exact ⟨part, hpart⟩
      · -- a condition that strays would lead the whole astray
        refine List.forall₂_iff_zip.2 ⟨hdenotes.length_eq, fun hmem => ?_⟩
        exact ih _ (List.of_mem_zip hmem).2 (List.forall₂_zip hdenotes hmem)
          fun hbelow => hstrays (.condition hamong hmem hbelow)

/-- **The operator of a root by its name**, in an object or at the head of an
array. -/
def NamesRoot (j : Json) (operator : Operator) : Prop :=
  (∃ entries, j = .object entries ∧ SoleEntry entries "op" (.text operator.name))
    ∨ ∃ parts, j = .array (.text operator.name :: parts)

/-- What denotes a tree on its own has the name of the tree's operator. -/
theorem Denotes.namesRoot {j : Json} {p : Predicate} (h : j.Denotes .root p) :
    j.NamesRoot p.operator := by
  cases h with
  | object hop htag _ hparts =>
    cases htag with
    | name => exact Or.inl ⟨_, rfl, hparts.operator_eq ▸ hop⟩
  | array htag hparts =>
    cases htag with
    | name => exact Or.inr ⟨_, by rw [hparts.operator_eq]⟩

end Json

namespace Predicate

/-- **What is decoded is a mapping or strays from one**, and it names the
operator of its root. So it is with every document that denotes a tree whose
leaves mean something, and every other document is refused as
undecodable. -/
theorem ofCanonical_mapping_or_strays (j : Json) :
    (∃ p, j.Denotes .root p ∧ p.IsMeaningful
        ∧ (Traced.outcome (ofCanonical j).run).1 = .ok p ∧ j.NamesRoot p.operator
        ∧ (j.IsMapping p ↔ ¬ j.Strays p))
      ∨ (∀ p, j.Denotes .root p → ¬ p.IsMeaningful)
        ∧ ∃ reason, (Traced.outcome (ofCanonical j).run).1 = .error (.undecodable reason) := by
  by_cases h : ∃ p, j.Denotes .root p ∧ p.IsMeaningful
  · obtain ⟨p, hdenotes, hmeaning⟩ := h
    have hdecoded : (Traced.outcome (ofCanonical j).run).1 = .ok p :=
      outcome_ofCanonical_eq_ok_iff.2 ⟨ofNode_eq_ok_iff.2 hdenotes, hmeaning⟩
    exact Or.inl ⟨p, hdenotes, hmeaning, hdecoded, hdenotes.namesRoot, Json.IsMapping.not_strays,
      hdenotes.isMapping⟩
  · have hnone : ∀ p, j.Denotes .root p → ¬ p.IsMeaningful := fun p hdenotes hmeaning =>
      h ⟨p, hdenotes, hmeaning⟩
    refine Or.inr ⟨hnone, ?_⟩
    cases hdecoded : (Traced.outcome (ofCanonical j).run).1 with
    | ok p =>
      obtain ⟨hshape, hmeaning⟩ := outcome_ofCanonical_eq_ok_iff.1 hdecoded
      exact absurd hmeaning (hnone p (ofNode_eq_ok_iff.1 hshape))
    | error failure =>
      -- a failure for a caller is always the message of a fault
      rw [outcome_ofCanonical] at hdecoded
      obtain ⟨fault, -, rfl⟩ := mapError_eq_error_iff.1 hdecoded
      exact ⟨fault.message, rfl⟩

/-- **Not only mappings are decoded.** An array is, and so is a negation of a
comparison that goes by the place of its operator. -/
theorem ofCanonical_eq_ok_and_not_isMapping :
    let p : Predicate := .compare .equal "k" (.bool true)
    let listed : Json := .array [.text "EQ", .text "k", .bool true]
    let numbered : Json := .object [
      ("condition", .object [("key", .text "k"),
        ("op", .number (.integer 0 (by decide) (by decide))), ("value", .bool true)]),
      ("op", .text "NOT")]
    ((Traced.outcome (ofCanonical listed).run).1 = .ok p ∧ ¬ listed.IsMapping p)
      ∧ (Traced.outcome (ofCanonical numbered).run).1 = .ok (.negate p)
        ∧ ¬ numbered.IsMapping (.negate p) := by
  intro p listed numbered
  have hmeaning : p.IsMeaningful := by
    simp [p, IsMeaningful, leaves, key?, values?]
  have hstrays : numbered.Strays (.negate p) :=
    .condition ⟨_, rfl, rfl⟩ (List.mem_singleton_self _) (.index rfl)
  exact ⟨⟨outcome_ofCanonical_eq_ok_iff.2 ⟨rfl, hmeaning⟩, fun h => h.not_strays .array⟩,
    outcome_ofCanonical_eq_ok_iff.2 ⟨rfl, hmeaning⟩, fun h => h.not_strays hstrays⟩

end Predicate

end FilterTree
