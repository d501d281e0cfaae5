import FilterTree.Proofs.Checking

/-!
# Building leaves

Checking a leaf that is there already is one decision, and so is building
one out of operands. Against the leaf may stand its key, or else the first
operand that has no value, or else the length of its list, and the first of
these is the objection (`Policy.comparison_eq_ruling`,
`Policy.membership_eq_ruling`).

So a leaf that is built is what it was asked to be: it has the key that was
given and the values that the operands have, and what could be objected to
in it is what the policy allows (`Policy.run_comparison_eq_ok_iff`,
`Policy.run_membership_eq_ok_iff`).
-/

namespace FilterTree

/-- A ruling gives its value if there is no objection, whatever has been
logged before. -/
theorem Build.run_ruling_eq_ok_iff {α : Type} {objection : Option Failure} {a b : α}
    {log : List Event} :
    ((Build.ruling objection a).run log).1 = .ok b ↔ objection = none ∧ b = a := by
  cases objection with
  | none =>
    show Except.ok a = Except.ok b ↔ _
    rw [Except.ok.injEq, and_iff_right rfl, eq_comm]
  | some failure => exact iff_of_false nofun nofun

/-- What follows a ruling is ruled on only if there was no objection. -/
theorem Build.ruling_bind {α β : Type} (first : Option Failure) (a : α)
    (second : α → Option Failure) (f : α → β) :
    (Build.ruling first a >>= fun a => Build.ruling (second a) (f a))
      = Build.ruling (first.or (second a)) (f a) := by
  cases first with
  | none =>
    rw [Option.none_or]
    exact pure_bind a _
  | some failure => exact reject_bind failure _

namespace Policy

/-- **What stands against an operand**: it has no value. -/
def operandObjection? (operator : Operator) (key : String) (operand : Operand) :
    Option Failure :=
  if operand.toValue? = none then some (.notFinite operator key) else none

/-- Nothing stands against operands that all have values. -/
theorem findSome?_operandObjection?_eq_none_iff {operator : Operator} {key : String}
    {operands : List Operand} :
    operands.findSome? (operandObjection? operator key) = none
      ↔ ∀ operand ∈ operands, operand.toValue? ≠ none := by
  rw [List.findSome?_eq_none_iff]
  refine forall₂_congr fun operand _ => ?_
  rw [operandObjection?, ite_eq_right_iff]
  exact ⟨fun h hnone => absurd (h hnone) nofun, fun h hnone => absurd hnone h⟩

/-- The operands of a leaf are accepted up to the first without a value. -/
theorem acceptAll_eq_ruling (operator : Operator) (key : String) (operands : List Operand) :
    acceptAll operator key operands
      = Build.ruling (operands.findSome? (operandObjection? operator key))
          (operands.filterMap Operand.toValue?) := by
  induction operands with
  | nil => rfl
  | cons operand operands ih =>
    rw [acceptAll, accept, List.findSome?_cons, operandObjection?]
    cases hvalue : operand.toValue? with
    | none => exact reject_bind _ _
    | some value =>
      rw [ih, List.filterMap_cons_some hvalue, if_neg (Option.some_ne_none value)]
      exact (pure_bind value _).trans (Build.ruling_bind_pure _ _ fun values => value :: values)

/-- **Building a leaf that compares is one decision.** -/
theorem comparison_eq_ruling {policy : Policy} {relation : Relation} {key : String}
    {operand : Operand} (value : Value) (h : ∀ v, operand.toValue? = some v → v = value) :
    policy.comparison relation key operand
      = Build.ruling
          ((policy.keyObjection? (.compare relation) key).or
            (operandObjection? (.compare relation) key operand))
          (.compare relation key value) := by
  have haccept : accept (.compare relation) key operand
      = Build.ruling (operandObjection? (.compare relation) key operand) value := by
    rw [accept, operandObjection?]
    cases hvalue : operand.toValue? with
    | none => rfl
    | some v =>
      rw [h v hvalue]
      rfl
  rw [comparison, checkKey_eq_ruling, haccept]
  exact Build.ruling_bind_ruling _ _ () value fun _ value => Predicate.compare relation key value

/-- **Building a leaf that looks up is one decision.** -/
theorem membership_eq_ruling (policy : Policy) (key : String) (operands : List Operand) :
    policy.membership key operands
      = Build.ruling
          ((policy.keyObjection? .member key).or
            ((operands.findSome? (operandObjection? .member key)).or
              (policy.valuesObjection? key (operands.filterMap Operand.toValue?))))
          (.member key (operands.filterMap Operand.toValue?)) := by
  have hvalues : ∀ values, (policy.checkValues key values >>= fun _ =>
        (pure (Predicate.member key values) : Build Predicate))
      = Build.ruling (policy.valuesObjection? key values) (.member key values) := by
    intro values
    rw [checkValues_eq_ruling]
    exact Build.ruling_bind_pure _ () fun _ => Predicate.member key values
  rw [membership, checkKey_eq_ruling, acceptAll_eq_ruling]
  simp only [hvalues]
  rw [Build.ruling_bind, Build.ruling_bind]

/-! ## Leaves that are built -/

theorem keyObjection?_eq_none_iff {policy : Policy} {operator : Operator} {key : String} :
    policy.keyObjection? operator key = none ↔ (key = "" → policy.allowEmptyKey = true) := by
  simp [keyObjection?]

theorem valuesObjection?_eq_none_iff {policy : Policy} {key : String} {values : List Value} :
    policy.valuesObjection? key values = none
      ↔ (values = [] → policy.allowEmptyValues = true) := by
  simp [valuesObjection?]

/-- **A leaf that compares is built** when the policy allows the key and the
operand has a value, and then of these. -/
theorem run_comparison_eq_ok_iff {policy : Policy} {relation : Relation} {key : String}
    {operand : Operand} {log : List Event} {p : Predicate} :
    ((policy.comparison relation key operand).run log).1 = .ok p
      ↔ (key = "" → policy.allowEmptyKey = true)
        ∧ ∃ value, operand.toValue? = some value ∧ p = .compare relation key value := by
  rw [comparison_eq_ruling (operand.toValue?.getD .null) fun v hv => by rw [hv]; rfl,
    Build.run_ruling_eq_ok_iff, Option.or_eq_none_iff, keyObjection?_eq_none_iff, and_assoc,
    operandObjection?]
  cases operand.toValue? with
  | none => simp
  | some value => simp

/-- **A leaf that looks up is built** when the policy allows the key, every
operand has a value and the policy allows the list of these, and then of
these. -/
theorem run_membership_eq_ok_iff {policy : Policy} {key : String} {operands : List Operand}
    {log : List Event} {p : Predicate} :
    ((policy.membership key operands).run log).1 = .ok p
      ↔ (key = "" → policy.allowEmptyKey = true)
        ∧ (∀ operand ∈ operands, operand.toValue? ≠ none)
        ∧ (operands.filterMap Operand.toValue? = [] → policy.allowEmptyValues = true)
        ∧ p = .member key (operands.filterMap Operand.toValue?) := by
  rw [membership_eq_ruling, Build.run_ruling_eq_ok_iff, Option.or_eq_none_iff,
    Option.or_eq_none_iff, keyObjection?_eq_none_iff, findSome?_operandObjection?_eq_none_iff,
    valuesObjection?_eq_none_iff, and_assoc, and_assoc]

end Policy

end FilterTree
