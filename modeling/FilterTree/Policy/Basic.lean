import FilterTree.Trace
import FilterTree.Value.Operand

/-!
# Policies

A **policy** says which leaves may be built. The strict one refuses an
empty key and an empty list to look up in, because no backend can act on
either; a policy may allow each of them, and the result is a leaf that
means nothing. A number that is not finite is refused by every policy.

The checks have an order: first the key, then the operands from left to
right up to the first that has no value, then the length of the list. The
first check to fail is the one reported, and no other is.
-/

namespace FilterTree

/-- **Which leaves may be built.** -/
structure Policy where
  /-- Whether the key may be empty. -/
  allowEmptyKey : Bool
  /-- Whether a list to look up in may be empty. -/
  allowEmptyValues : Bool
deriving DecidableEq, Repr

namespace Policy

/-- The policy that allows neither. -/
def strict : Policy := ⟨false, false⟩

/-- The policy that allows both. -/
def permissive : Policy := ⟨true, true⟩

/-- Checks the key of a leaf. -/
def checkKey (policy : Policy) (operator : Operator) (key : String) : Build Unit :=
  if key = "" ∧ policy.allowEmptyKey = false then reject (.emptyKey operator) else pure ()

/-- The value of an operand of a leaf. -/
def accept (operator : Operator) (key : String) (operand : Operand) : Build Value :=
  match operand.toValue? with
  | some value => pure value
  | none => reject (.notFinite operator key)

/-- The values of the operands of a leaf. -/
def acceptAll (operator : Operator) (key : String) : List Operand → Build (List Value)
  | [] => pure []
  | operand :: rest => do
    let value ← accept operator key operand
    let values ← acceptAll operator key rest
    pure (value :: values)

/-- **A leaf that compares.** -/
def comparison (policy : Policy) (relation : Relation) (key : String) (operand : Operand) :
    Build Predicate := do
  policy.checkKey (.compare relation) key
  let value ← accept (.compare relation) key operand
  pure (.compare relation key value)

/-- Checks the length of a list to look up in. -/
def checkValues (policy : Policy) (key : String) (values : List Value) : Build Unit :=
  if values = [] ∧ policy.allowEmptyValues = false then reject (.emptyValues key) else pure ()

/-- **A leaf that looks up in a list.** -/
def membership (policy : Policy) (key : String) (operands : List Operand) :
    Build Predicate := do
  policy.checkKey .member key
  let values ← acceptAll .member key operands
  policy.checkValues key values
  pure (.member key values)

mutual

/-- **Building a tree anew** under a policy: its leaves are built again from
left to right, up to the first that is refused. -/
def rebuild (policy : Policy) : Predicate → Build Predicate
  | .compare relation key value => policy.comparison relation key (.value value)
  | .member key values => policy.membership key (values.map .value)
  | .join connective conditions => do
    let conditions ← rebuildAll policy conditions
    pure (.join connective conditions)
  | .negate condition => do
    let condition ← rebuild policy condition
    pure (.negate condition)

/-- Building several trees anew. -/
def rebuildAll (policy : Policy) : List Predicate → Build (List Predicate)
  | [] => pure []
  | p :: rest => do
    let p ← rebuild policy p
    let rest ← rebuildAll policy rest
    pure (p :: rest)

end

end Policy

end FilterTree
