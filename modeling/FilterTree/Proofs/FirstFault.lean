import FilterTree.Proofs.Grammar

/-!
# The first fault of a document

A document may be at fault in many places, and one fault is reported. Two
rules settle which. A fault of the shape goes before every fault of a leaf,
wherever the two stand, because no leaf is checked before the whole document
has been decoded. Among the leaves the first to be met counts, on a walk that
goes down before it goes on to the right, and a leaf with two faults is
reported for its key.

`Predicate.FirstFault` says this of a tree, condition by condition, without
a decoder and without a log. It holds of one failure at most, and of one
exactly where a leaf means nothing (`Predicate.firstFault_iff`). The main
statement is that decoding a document has three outcomes, and only the one
that reports a leaf leaves an event: the failure that is logged is the
failure that is returned, and nothing after it is looked at
(`Predicate.ofCanonical_reports_first_fault`).
-/

namespace FilterTree

theorem findSome?_flatMap {α β γ : Type} (f : β → Option γ) (g : α → List β) (as : List α) :
    (as.flatMap g).findSome? f = as.findSome? fun a => (g a).findSome? f := by
  induction as with
  | nil => rfl
  | cons a as ih =>
    rw [List.flatMap_cons, List.findSome?_append, ih, List.findSome?_cons]
    cases (g a).findSome? f with
    | none => rfl
    | some c => rfl

namespace Predicate

/-- **The fault of a leaf.** An empty key counts before an empty list. -/
inductive LeafFault : Predicate → Failure → Prop
  /-- The key is empty. -/
  | emptyKey {leaf : Predicate} (key_empty : leaf.key? = some "") :
    LeafFault leaf (.emptyKey leaf.operator)
  /-- The key is not empty, but the list to look up in is. -/
  | emptyValues {leaf : Predicate} {key : String} (has_key : leaf.key? = some key)
    (key_ne : key ≠ "") (values_empty : leaf.values? = some []) :
    LeafFault leaf (.emptyValues key)

/-- **The first fault of a tree**: its own if it is a leaf, and otherwise the
first fault of the first condition that has one. -/
inductive FirstFault : Predicate → Failure → Prop
  /-- The tree is a leaf at fault. -/
  | leaf {p : Predicate} {failure : Failure} (fault : LeafFault p failure) : FirstFault p failure
  /-- A condition is at fault, and those to its left are not. -/
  | child {p q : Predicate} {before after : List Predicate} {failure : Failure}
    (children_eq : p.children = before ++ q :: after)
    (before_meaningful : ∀ r ∈ before, r.IsMeaningful) (fault : FirstFault q failure) :
    FirstFault p failure

variable {p : Predicate} {failure : Failure}

/-- A composite has no fault of its own. -/
theorem not_leafFault_of_key? (h : p.key? = none) : ¬ p.LeafFault failure := by
  intro hfault
  cases hfault with
  | emptyKey key_empty => exact absurd (h.symm.trans key_empty) nofun
  | emptyValues has_key => exact absurd (h.symm.trans has_key) nofun

/-- **The strict policy objects to a leaf** for its fault. -/
theorem objection?_eq_some_iff_leafFault :
    Policy.strict.objection? p = some failure ↔ p.LeafFault failure := by
  cases p with
  | compare relation key value =>
    simp only [Policy.objection?, Policy.keyObjection?, Policy.strict, and_true]
    constructor
    · intro h
      split at h
      · rename_i hkey
        obtain rfl := Option.some.inj h
        exact .emptyKey (congrArg some hkey)
      · cases h
    · rintro (⟨⟨⟩⟩ | ⟨-, -, ⟨⟩⟩)
      rfl
  | member key values =>
    simp only [Policy.objection?, Policy.keyObjection?, Policy.valuesObjection?, Policy.strict,
      and_true]
    by_cases hkey : key = ""
    · subst hkey
      rw [if_pos rfl, Option.some_or, Option.some.injEq]
      constructor
      · rintro rfl
        exact .emptyKey rfl
      · rintro (_ | ⟨⟨rfl⟩, hne⟩)
        · rfl
        · exact absurd rfl hne
    · rw [if_neg hkey, Option.none_or]
      constructor
      · intro h
        obtain ⟨rfl, ⟨rfl⟩⟩ := Option.ite_none_right_eq_some.1 h
        exact .emptyValues rfl hkey rfl
      · rintro (⟨⟨⟩⟩ | ⟨⟨rfl⟩, -, ⟨rfl⟩⟩)
        · exact absurd rfl hkey
        · rfl
  | join connective conditions =>
    exact iff_of_false (by simp [Policy.objection?]) (not_leafFault_of_key? rfl)
  | negate condition =>
    exact iff_of_false (by simp [Policy.objection?]) (not_leafFault_of_key? rfl)

/-- The leaves of a composite are those of its conditions. -/
theorem leaves_eq_flatMap_children (h : p.key? = none) : p.leaves = p.children.flatMap leaves := by
  cases p with
  | compare relation key value => cases h
  | member key values => cases h
  | join connective conditions => rw [leaves, leavesAll_eq_flatMap, children]
  | negate condition => rw [leaves, children, List.flatMap_singleton]

/-- A composite has the first fault of the first of its conditions at fault,
if that can be found among the leaves of each condition. -/
theorem firstFault_iff_of_children (h : p.key? = none)
    (ih : ∀ q ∈ p.children, ∀ failure,
      q.FirstFault failure ↔ q.leaves.findSome? Policy.strict.objection? = some failure) :
    p.FirstFault failure ↔ p.leaves.findSome? Policy.strict.objection? = some failure := by
  rw [leaves_eq_flatMap_children h, findSome?_flatMap, List.findSome?_eq_some_iff]
  constructor
  · rintro (hfault | ⟨hchildren, hbefore, hfault⟩)
    · exact absurd hfault (not_leafFault_of_key? h)
    · refine ⟨_, _, _, hchildren, ?_, fun r hr => (isMeaningful_iff r).1 (hbefore r hr)⟩
      exact (ih _ (hchildren ▸ List.mem_append_cons_self) _).1 hfault
  · rintro ⟨before, q, after, hchildren, hfault, hbefore⟩
    refine .child hchildren (fun r hr => (isMeaningful_iff r).2 (hbefore r hr)) ?_
    exact (ih q (hchildren ▸ List.mem_append_cons_self) _).2 hfault

/-- A leaf has its own fault. -/
theorem firstFault_iff_of_leaf (hchildren : p.children = []) (hleaves : p.leaves = [p]) :
    p.FirstFault failure ↔ p.leaves.findSome? Policy.strict.objection? = some failure := by
  rw [hleaves, List.findSome?_singleton, objection?_eq_some_iff_leafFault]
  constructor
  · rintro (hfault | ⟨heq, -, -⟩)
    · exact hfault
    · exact absurd (hchildren.symm.trans heq) (by simp)
  · exact .leaf

/-- **The first fault of a tree** is what the strict policy objects to first
among its leaves. -/
theorem firstFault_iff :
    p.FirstFault failure ↔ p.leaves.findSome? Policy.strict.objection? = some failure := by
  induction p generalizing failure with
  | compare relation key value => exact firstFault_iff_of_leaf rfl rfl
  | member key values => exact firstFault_iff_of_leaf rfl rfl
  | join connective conditions ih => exact firstFault_iff_of_children rfl fun q hq _ => ih q hq
  | negate condition ih =>
    refine firstFault_iff_of_children rfl ?_
    rw [children, List.forall_mem_singleton]
    exact fun _ => ih

theorem exists_firstFault (h : ¬ p.IsMeaningful) : ∃ failure, p.FirstFault failure := by
  obtain ⟨failure, hfailure⟩ := p.isMeaningful_or_objection.resolve_left h
  exact ⟨failure, firstFault_iff.2 hfailure⟩

theorem FirstFault.kind_eq (h : p.FirstFault failure) : failure.kind = .invalidArgument := by
  induction h with
  | leaf fault => cases fault <;> rfl
  | child _ _ _ ih => exact ih

/-- **Of all faults of a document one is reported.** If the document has not
the shape of a tree, then it is refused for that and nothing is logged,
whatever its leaves are. If it has, and a leaf means nothing, then it is
refused for the first fault of the tree, and the one event is the record of that
failure, with the text that the refusal gives as its reason. Otherwise the tree
is returned, and nothing is logged. -/
theorem ofCanonical_reports_first_fault (j : Json) :
    ((∀ p, ¬ j.Denotes .root p) →
        ∃ reason, Traced.outcome (ofCanonical j).run = (.error (.undecodable reason), []))
      ∧ (∀ p, j.Denotes .root p → ¬ p.IsMeaningful →
        (∃ failure, p.FirstFault failure)
          ∧ ∀ failure, p.FirstFault failure →
            (Event.rejected failure).RecordsRefusal failure.message
              ∧ Traced.outcome (ofCanonical j).run
                = (.error (.undecodable failure.message), [.rejected failure]))
      ∧ (∀ p, j.Denotes .root p → p.IsMeaningful →
        Traced.outcome (ofCanonical j).run = (.ok p, [])) := by
  refine ⟨fun hnone => ?_, fun p hp hmeaning => ?_, fun p hp hmeaning => ?_⟩
  · cases hshape : ofShape j with
    | error fault => exact ⟨fault.message, outcome_ofCanonical_of_error hshape⟩
    | ok p => exact absurd (ofNode_eq_ok_iff.1 hshape) (hnone p)
  · refine ⟨exists_firstFault hmeaning, fun failure hfailure =>
      ⟨Event.recordsRefusal_rejected hfailure.kind_eq, ?_⟩⟩
    exact outcome_ofCanonical_of_objection (ofNode_eq_ok_iff.2 hp) (firstFault_iff.1 hfailure)
  · exact outcome_ofCanonical_of_isMeaningful (ofNode_eq_ok_iff.2 hp) hmeaning

/-- A node that lacks a value hides the empty key before it. In a tree of the
right shape the second condition, with an empty key and an empty list, is
reported for its key, and the third is not reported. Without these two the
tree is returned. -/
theorem ofCanonical_reports_first_fault_of_several :
    let fine : Json := .array [.text "NOT", .array [.text "EQ", .text "k", .bool true]]
    let faulty : Json := .array [.number (.integer 1 (by decide) (by decide)), .text "", .array []]
    let empty : Json := .object [("value", .null), ("key", .text ""), ("op", .text "EQ")]
    let join (conditions : List Json) : Json :=
      .object [("conditions", .array conditions), ("op", .text "OR")]
    (∃ reason, Traced.outcome (ofCanonical (join [empty, .array [.text "LT", .text "k"]])).run
        = (.error (.undecodable reason), []))
      ∧ Traced.outcome (ofCanonical (join [fine, faulty, empty])).run
        = (.error (.undecodable "IN predicate requires a non-empty key"),
          [.rejected (.emptyKey .member)])
      ∧ Traced.outcome (ofCanonical (join [fine])).run
        = (.ok (.join .or [.negate (.compare .equal "k" (.bool true))]), []) := by
  intro fine faulty empty join
  let p : Predicate := .negate (.compare .equal "k" (.bool true))
  let q : Predicate := .join .or [p, .member "" [], .compare .equal "" .null]
  have hp : ∀ r ∈ [p], r.IsMeaningful := by
    simp [p, IsMeaningful, leaves, key?, values?]
  refine ⟨(ofCanonical_reports_first_fault _).1 fun r hr => ?_, ?_, ?_⟩
  · have hshape : ofNode .root (join [empty, .array [.text "LT", .text "k"]]) = .ok r :=
      ofNode_eq_ok_iff.2 hr
    cases hshape
  · have hdenotes : (join [fine, faulty, empty]).Denotes .root q := ofNode_eq_ok_iff.1 rfl
    have hmeaning : ¬ q.IsMeaningful := fun h =>
      (h (.member "" []) (List.mem_cons_of_mem _ List.mem_cons_self)).1 rfl
    have hchildren : q.children = [p] ++ .member "" [] :: [.compare .equal "" .null] := rfl
    have hfirst : q.FirstFault (.emptyKey .member) := .child hchildren hp (.leaf (.emptyKey rfl))
    exact (((ofCanonical_reports_first_fault _).2.1 q hdenotes hmeaning).2 _ hfirst).2
  · have hdenotes : (join [fine]).Denotes .root (.join .or [p]) := ofNode_eq_ok_iff.1 rfl
    exact (ofCanonical_reports_first_fault _).2.2 _ hdenotes (forall_mem_leaves_join_iff.2 hp)

end Predicate

end FilterTree
