import FilterTree.Predicate.Read
import FilterTree.Proofs.Leaves

/-!
# Checking leaves

A decoded tree is built again under the strict policy, leaf by leaf. What
that amounts to is **one decision**: the leaves are looked through from left
to right for the first that the policy objects to
(`Policy.objection?`), and either there is none and the tree stays as it
is, or that one objection is logged and returned (`Policy.rebuild_eq_ruling`).

The decoders follow from it. Decoding a document or a text comes to one of
three things: a fault of the shape and no event, the objection to a leaf and
its event, or the tree and no event. Each has its lemma, and
`Predicate.outcome_ofCanonical_eq_ok_iff` and
`Predicate.outcome_ofText_eq_ok_iff` say when it is the tree.
-/

namespace FilterTree

/-! ## Actions that decide once -/

/-- **A ruling**: fails with an objection, and emits that, or gives the
value if there is none. -/
def Build.ruling {α : Type} (objection : Option Failure) (a : α) : Build α :=
  match objection with
  | some failure => reject failure
  | none => pure a

theorem reject_bind {α β : Type} (failure : Failure) (f : α → Build β) :
    (reject failure : Build α) >>= f = reject failure :=
  rfl

/-- What follows a ruling is done only if there was no objection. -/
theorem Build.ruling_bind_pure {α β : Type} (objection : Option Failure) (a : α) (f : α → β) :
    (Build.ruling objection a >>= fun a => pure (f a)) = Build.ruling objection (f a) := by
  cases objection with
  | none => exact pure_bind a _
  | some failure => exact reject_bind failure _

/-- Of two rulings in a row the first objection counts. -/
theorem Build.ruling_bind_ruling {α β γ : Type} (first second : Option Failure) (a : α) (b : β)
    (f : α → β → γ) :
    (Build.ruling first a >>= fun a => Build.ruling second b >>= fun b => pure (f a b))
      = Build.ruling (first.or second) (f a b) := by
  cases first with
  | none =>
    rw [Option.none_or]
    exact (pure_bind a _).trans (Build.ruling_bind_pure second b (f a))
  | some failure => exact reject_bind failure _

/-! ## Policies -/

namespace Policy

/-- What a policy has against the key of a leaf. -/
def keyObjection? (policy : Policy) (operator : Operator) (key : String) : Option Failure :=
  if key = "" ∧ policy.allowEmptyKey = false then some (.emptyKey operator) else none

/-- What a policy has against the list of a leaf. -/
def valuesObjection? (policy : Policy) (key : String) (values : List Value) : Option Failure :=
  if values = [] ∧ policy.allowEmptyValues = false then some (.emptyValues key) else none

/-- **What a policy has against a leaf**: first its key, and then its
list. -/
def objection? (policy : Policy) : Predicate → Option Failure
  | .compare relation key _ => policy.keyObjection? (.compare relation) key
  | .member key values => (policy.keyObjection? .member key).or (policy.valuesObjection? key values)
  | .join _ _ => none
  | .negate _ => none

theorem checkKey_eq_ruling (policy : Policy) (operator : Operator) (key : String) :
    policy.checkKey operator key = Build.ruling (policy.keyObjection? operator key) () := by
  unfold checkKey keyObjection?
  split
  · rfl
  · rfl

theorem checkValues_eq_ruling (policy : Policy) (key : String) (values : List Value) :
    policy.checkValues key values = Build.ruling (policy.valuesObjection? key values) () := by
  unfold checkValues valuesObjection?
  split
  · rfl
  · rfl

theorem acceptAll_map_value (operator : Operator) (key : String) (values : List Value) :
    acceptAll operator key (values.map .value) = pure values := by
  induction values with
  | nil => rfl
  | cons value values ih =>
    rw [List.map_cons, acceptAll, ih]
    rfl

/-- A leaf that compares with a ready value is refused for its key only. -/
theorem comparison_value (policy : Policy) (relation : Relation) (key : String) (value : Value) :
    policy.comparison relation key (.value value)
      = Build.ruling (policy.objection? (.compare relation key value))
          (.compare relation key value) := by
  unfold comparison
  rw [checkKey_eq_ruling]
  exact Build.ruling_bind_pure _ () fun _ => Predicate.compare relation key value

/-- A leaf that looks up among ready values is refused for its key, or else
for having none. -/
theorem membership_map_value (policy : Policy) (key : String) (values : List Value) :
    policy.membership key (values.map .value)
      = Build.ruling (policy.objection? (.member key values)) (.member key values) := by
  unfold membership
  rw [checkKey_eq_ruling, acceptAll_map_value, pure_bind, checkValues_eq_ruling]
  exact Build.ruling_bind_ruling _ _ () () fun _ _ => Predicate.member key values

/-- Building several trees anew is one decision if building each of them
is. -/
theorem rebuildAll_eq_ruling (policy : Policy) (ps : List Predicate)
    (h : ∀ p ∈ ps, policy.rebuild p = Build.ruling (p.leaves.findSome? policy.objection?) p) :
    policy.rebuildAll ps
      = Build.ruling ((Predicate.leavesAll ps).findSome? policy.objection?) ps := by
  induction ps with
  | nil => rfl
  | cons p ps ih =>
    rw [rebuildAll, h p List.mem_cons_self, ih fun q hq => h q (List.mem_cons_of_mem p hq),
      Build.ruling_bind_ruling, Predicate.leavesAll, List.findSome?_append]

/-- **Building a tree anew is one decision**: the first objection to a leaf,
from left to right, is returned and logged, and without any the tree stays
as it is. -/
theorem rebuild_eq_ruling (policy : Policy) (p : Predicate) :
    policy.rebuild p = Build.ruling (p.leaves.findSome? policy.objection?) p := by
  induction p with
  | compare relation key value =>
    rw [rebuild, comparison_value, Predicate.leaves, List.findSome?_singleton]
  | member key values =>
    rw [rebuild, membership_map_value, Predicate.leaves, List.findSome?_singleton]
  | join connective conditions ih =>
    rw [rebuild, rebuildAll_eq_ruling policy conditions ih, Build.ruling_bind_pure,
      Predicate.leaves]
  | negate condition ih => rw [rebuild, ih, Build.ruling_bind_pure, Predicate.leaves]

end Policy

namespace Predicate

/-- **The strict policy accepts what is meaningful** and nothing else. -/
theorem isMeaningful_iff (p : Predicate) :
    p.IsMeaningful ↔ p.leaves.findSome? Policy.strict.objection? = none := by
  rw [List.findSome?_eq_none_iff]
  refine forall₂_congr fun leaf _ => ?_
  cases leaf with
  | compare relation key value =>
    simp [Policy.objection?, Policy.keyObjection?, Policy.strict, key?, values?]
  | member key values =>
    simp [Policy.objection?, Policy.keyObjection?, Policy.valuesObjection?, Policy.strict, key?,
      values?]
  | join connective conditions => simp [Policy.objection?, key?, values?]
  | negate condition => simp [Policy.objection?, key?, values?]

/-- A tree with an objectionable leaf is refused for the first one, and that
is logged. -/
theorem checked_of_objection {shape : Predicate} {failure : Failure}
    (h : shape.leaves.findSome? Policy.strict.objection? = some failure) :
    checked shape = (do emit (.rejected failure); pure (.error (.refused failure))) := by
  unfold checked
  rw [Policy.rebuild_eq_ruling, h]
  rfl

/-- A meaningful tree passes, and nothing is logged. -/
theorem checked_of_isMeaningful {shape : Predicate} (h : shape.IsMeaningful) :
    checked shape = pure (.ok shape) := by
  unfold checked
  rw [Policy.rebuild_eq_ruling, (isMeaningful_iff shape).1 h]
  rfl

/-- A tree is meaningful, or there is a first objection to a leaf. -/
theorem isMeaningful_or_objection (p : Predicate) :
    p.IsMeaningful ∨ ∃ failure, p.leaves.findSome? Policy.strict.objection? = some failure := by
  rw [isMeaningful_iff]
  cases p.leaves.findSome? Policy.strict.objection? with
  | none => exact Or.inl rfl
  | some failure => exact Or.inr ⟨failure, rfl⟩

/-! ## Decoding documents -/

/-- **A document of the wrong shape** is refused, and nothing is logged. -/
theorem outcome_ofCanonical_of_error {j : Json} {fault : DecodeFault}
    (h : ofShape j = .error fault) :
    Traced.outcome (ofCanonical j).run = (.error (.undecodable fault.message), []) := by
  unfold ofCanonical decode
  rw [h]
  rfl

/-- **A document of the right shape with an objectionable leaf** is refused
for the first one, and that is logged. -/
theorem outcome_ofCanonical_of_objection {j : Json} {shape : Predicate} {failure : Failure}
    (hshape : ofShape j = .ok shape)
    (h : shape.leaves.findSome? Policy.strict.objection? = some failure) :
    Traced.outcome (ofCanonical j).run
      = (.error (.undecodable failure.message), [.rejected failure]) := by
  simp only [ofCanonical, decode, hshape, checked_of_objection h]
  rfl

/-- **A document of the right shape with meaningful leaves** is decoded, and
nothing is logged. -/
theorem outcome_ofCanonical_of_isMeaningful {j : Json} {shape : Predicate}
    (hshape : ofShape j = .ok shape) (h : shape.IsMeaningful) :
    Traced.outcome (ofCanonical j).run = (.ok shape, []) := by
  simp only [ofCanonical, decode, hshape, checked_of_isMeaningful h]
  rfl

/-- **Decoding a document succeeds** when it has the shape of a tree whose
leaves mean something, and then with that tree. -/
theorem outcome_ofCanonical_eq_ok_iff {j : Json} {p : Predicate} :
    (Traced.outcome (ofCanonical j).run).1 = .ok p ↔ ofShape j = .ok p ∧ p.IsMeaningful := by
  cases hshape : ofShape j with
  | error fault =>
    rw [outcome_ofCanonical_of_error hshape]
    simp
  | ok shape =>
    rcases shape.isMeaningful_or_objection with hmeaning | ⟨failure, hobjection⟩
    · rw [outcome_ofCanonical_of_isMeaningful hshape hmeaning]
      constructor
      · rintro ⟨rfl⟩
        exact ⟨rfl, hmeaning⟩
      · rintro ⟨⟨rfl⟩, -⟩
        rfl
    · rw [outcome_ofCanonical_of_objection hshape hobjection]
      refine iff_of_false (by simp) ?_
      rintro ⟨⟨rfl⟩, hmeaning⟩
      rw [isMeaningful_iff, hobjection] at hmeaning
      exact absurd hmeaning (by simp)

/-- **Decoding a document for a caller** is decoding it, with the message of
its fault in the place of the fault. -/
theorem outcome_ofCanonical (j : Json) :
    Traced.outcome (ofCanonical j).run
      = ((decode j).outcome.1.mapError fun fault => .undecodable fault.message,
        (decode j).outcome.2) := by
  cases hshape : ofShape j with
  | error fault =>
    rw [outcome_ofCanonical_of_error hshape]
    simp only [decode, hshape]
    rfl
  | ok shape =>
    rcases shape.isMeaningful_or_objection with hmeaning | ⟨failure, hobjection⟩
    · rw [outcome_ofCanonical_of_isMeaningful hshape hmeaning]
      simp only [decode, hshape, checked_of_isMeaningful hmeaning]
      rfl
    · rw [outcome_ofCanonical_of_objection hshape hobjection]
      simp only [decode, hshape, checked_of_objection hobjection]
      rfl

/-! ## Decoding texts -/

/-- **A text of the wrong shape** is refused, and nothing is logged. -/
theorem outcome_ofText_of_error {text : String} {fault : ReadFault}
    (h : ofOutline (Reading.ofText text).outline = .error fault) :
    (ofText text).outcome = (.error fault, []) := by
  simp only [ofText, h]
  rfl

/-- **A text of the right shape with an objectionable leaf** is refused for
the first one, and that is logged. -/
theorem outcome_ofText_of_objection {text : String} {shape : Predicate} {failure : Failure}
    (hshape : ofOutline (Reading.ofText text).outline = .ok shape)
    (h : shape.leaves.findSome? Policy.strict.objection? = some failure) :
    (ofText text).outcome = (.error (.data (.refused failure)), [.rejected failure]) := by
  simp only [ofText, hshape, checked_of_objection h]
  rfl

/-- **A text of the right shape with meaningful leaves** is decoded, unless
something follows its value. -/
theorem outcome_ofText_of_isMeaningful {text : String} {shape : Predicate}
    (hshape : ofOutline (Reading.ofText text).outline = .ok shape) (h : shape.IsMeaningful) :
    (ofText text).outcome
      = (if (Reading.ofText text).trailing then .error .malformed else .ok shape, []) := by
  simp only [ofText, hshape, checked_of_isMeaningful h]
  rfl

/-- **Decoding a text succeeds** when its outline has the shape of a tree
whose leaves mean something and nothing follows, and then with that
tree. -/
theorem outcome_ofText_eq_ok_iff {text : String} {p : Predicate} :
    (ofText text).outcome.1 = .ok p
      ↔ ofOutline (Reading.ofText text).outline = .ok p ∧ p.IsMeaningful
        ∧ (Reading.ofText text).trailing = false := by
  cases hshape : ofOutline (Reading.ofText text).outline with
  | error fault =>
    rw [outcome_ofText_of_error hshape]
    simp
  | ok shape =>
    rcases shape.isMeaningful_or_objection with hmeaning | ⟨failure, hobjection⟩
    · rw [outcome_ofText_of_isMeaningful hshape hmeaning]
      cases (Reading.ofText text).trailing with
      | true => simp
      | false =>
        constructor
        · rintro ⟨rfl⟩
          exact ⟨rfl, hmeaning, rfl⟩
        · rintro ⟨⟨rfl⟩, -, -⟩
          rfl
    · rw [outcome_ofText_of_objection hshape hobjection]
      refine iff_of_false (by simp) ?_
      rintro ⟨⟨rfl⟩, hmeaning, -⟩
      rw [isMeaningful_iff, hobjection] at hmeaning
      exact absurd hmeaning (by simp)

end Predicate

end FilterTree
