import FilterTree.Proofs.LeafConstruction

/-!
# Licences for vacuous leaves

A leaf with the empty key means nothing, and neither does one that looks up
in the empty list. A tree is **licensed** for such leaves
(`Predicate.IsLicensed`) if it has none, or if what gives the licence holds.
Leaves are licensed by the policy they are built under, composition keeps
the licences of its operands and taking a child keeps those of the tree, and
what is decoded needs none.

Without any licence a tree is meaningful.
-/

namespace FilterTree

namespace Predicate

/-- **A licensed tree**: empty keys are in it only if they are allowed, and
so are empty lists. -/
def IsLicensed (emptyKeys emptyLists : Prop) (p : Predicate) : Prop :=
  ∀ leaf ∈ p.leaves,
    (leaf.key? = some "" → emptyKeys) ∧ (leaf.values? = some [] → emptyLists)

variable {emptyKeys emptyLists : Prop}

/-- **Without any licence** a tree is licensed if it is meaningful. -/
theorem isLicensed_false_iff {p : Predicate} : p.IsLicensed False False ↔ p.IsMeaningful :=
  Iff.rfl

theorem IsMeaningful.isLicensed {p : Predicate} (h : p.IsMeaningful) :
    p.IsLicensed emptyKeys emptyLists :=
  fun leaf hleaf => ⟨fun hempty => absurd hempty (h leaf hleaf).1,
    fun hempty => absurd hempty (h leaf hleaf).2⟩

/-- **A join is licensed** when its conditions are. -/
theorem isLicensed_join_iff {connective : Connective} {ps : List Predicate} :
    (join connective ps).IsLicensed emptyKeys emptyLists
      ↔ ∀ p ∈ ps, p.IsLicensed emptyKeys emptyLists :=
  forall_mem_leaves_join_iff

/-- **A negation is licensed** when its condition is. -/
theorem isLicensed_negate_iff {p : Predicate} :
    (negate p).IsLicensed emptyKeys emptyLists ↔ p.IsLicensed emptyKeys emptyLists :=
  Iff.rfl

theorem IsLicensed.pair {p q : Predicate} (hp : p.IsLicensed emptyKeys emptyLists)
    (hq : q.IsLicensed emptyKeys emptyLists) (connective : Connective) :
    (Predicate.pair connective p q).IsLicensed emptyKeys emptyLists := by
  refine isLicensed_join_iff.2 ?_
  simp only [List.forall_mem_cons]
  exact ⟨hp, hq, List.forall_mem_nil _⟩

theorem IsLicensed.pairOption {p : Predicate} {other : Option Predicate}
    (hp : p.IsLicensed emptyKeys emptyLists)
    (hother : ∀ q ∈ other, q.IsLicensed emptyKeys emptyLists) (connective : Connective) :
    (Predicate.pairOption connective p other).IsLicensed emptyKeys emptyLists := by
  cases other with
  | none => exact hp
  | some q => exact hp.pair (hother q rfl) connective

/-- **The children of a licensed tree** are licensed. -/
theorem IsLicensed.child {p child : Predicate} (h : p.IsLicensed emptyKeys emptyLists)
    (hchild : child ∈ p.children) : child.IsLicensed emptyKeys emptyLists := by
  cases p with
  | compare relation key value => exact absurd hchild List.not_mem_nil
  | member key values => exact absurd hchild List.not_mem_nil
  | join connective conditions => exact isLicensed_join_iff.1 h child hchild
  | negate condition =>
    obtain rfl := List.mem_singleton.1 hchild
    exact isLicensed_negate_iff.1 h

/-! ## Leaves -/

/-- **A leaf that compares** is licensed if the policy has the licence for
its key. -/
theorem isLicensed_of_comparison {policy : Policy} {relation : Relation} {key : String}
    {operand : Operand} {log : List Event} {p : Predicate}
    (h : ((policy.comparison relation key operand).run log).1 = .ok p)
    (hkeys : policy.allowEmptyKey = true → emptyKeys) : p.IsLicensed emptyKeys emptyLists := by
  obtain ⟨hkey, value, -, rfl⟩ := Policy.run_comparison_eq_ok_iff.1 h
  intro leaf hleaf
  obtain rfl := List.mem_singleton.1 hleaf
  exact ⟨fun hempty => hkeys (hkey (Option.some.inj hempty)), nofun⟩

/-- **A leaf that looks up** is licensed if the policy has the licences for
its key and its list. -/
theorem isLicensed_of_membership {policy : Policy} {key : String} {operands : List Operand}
    {log : List Event} {p : Predicate}
    (h : ((policy.membership key operands).run log).1 = .ok p)
    (hkeys : policy.allowEmptyKey = true → emptyKeys)
    (hlists : policy.allowEmptyValues = true → emptyLists) :
    p.IsLicensed emptyKeys emptyLists := by
  obtain ⟨hkey, -, hvalues, rfl⟩ := Policy.run_membership_eq_ok_iff.1 h
  intro leaf hleaf
  obtain rfl := List.mem_singleton.1 hleaf
  exact ⟨fun hempty => hkeys (hkey (Option.some.inj hempty)),
    fun hempty => hlists (hvalues (Option.some.inj hempty))⟩

/-! ## Decoding -/

/-- **What a document is decoded to** is meaningful, whatever has been logged
before. -/
theorem isMeaningful_of_run_ofCanonical {j : Json} {log : List Event} {p : Predicate}
    (h : ((ofCanonical j).run log).1 = .ok p) : p.IsMeaningful := by
  cases hshape : ofShape j with
  | error fault =>
    simp only [ofCanonical, decode, hshape] at h
    cases h
  | ok shape =>
    rcases shape.isMeaningful_or_objection with hmeaning | ⟨failure, hobjection⟩
    · simp only [ofCanonical, decode, hshape, checked_of_isMeaningful hmeaning] at h
      obtain rfl : shape = p := Except.ok.inj h
      exact hmeaning
    · simp only [ofCanonical, decode, hshape, checked_of_objection hobjection] at h
      cases h

/-- **What a text is decoded to** is meaningful, whatever has been logged
before. -/
theorem isMeaningful_of_run_ofText {text : String} {log : List Event} {p : Predicate}
    (h : ((ofText text).run log).1 = .ok p) : p.IsMeaningful := by
  cases hshape : ofOutline (Reading.ofText text).outline with
  | error fault =>
    simp only [ofText, hshape] at h
    cases h
  | ok shape =>
    rcases shape.isMeaningful_or_objection with hmeaning | ⟨failure, hobjection⟩
    · simp only [ofText, hshape, checked_of_isMeaningful hmeaning] at h
      cases htrailing : (Reading.ofText text).trailing with
      | true =>
        rw [htrailing] at h
        cases h
      | false =>
        rw [htrailing] at h
        obtain rfl : shape = p := Except.ok.inj h
        exact hmeaning
    · simp only [ofText, hshape, checked_of_objection hobjection] at h
      cases h

end Predicate

end FilterTree
