import FilterTree.Predicate.Basic

/-!
# The canonical form

Every tree has one JSON document, its **canonical form**. A node is an
object with the name of its operator under `op` and its parts under names
fixed for the operator: `key` and `value`, `key` and `values`, `conditions`,
or `condition`. The names ascend, so the form is in normal form as a
document. A composite holds the canonical forms of its conditions, and so
the form has the shape of the tree.

How deep the form nests is a function of the tree (`Predicate.nesting`),
and not only of its depth: a join takes two levels, its object and its list.
-/

namespace FilterTree.Predicate

mutual

/-- **The canonical form** of a tree. -/
def canonical : Predicate → Json
  | .compare relation key value =>
    .object [("key", .text key), ("op", .text (Operator.compare relation).name),
      ("value", value.toJson)]
  | .member key values =>
    .object [("key", .text key), ("op", .text Operator.member.name),
      ("values", .array (values.map Value.toJson))]
  | .join connective conditions =>
    .object [("conditions", .array (canonicals conditions)),
      ("op", .text (Operator.join connective).name)]
  | .negate condition =>
    .object [("condition", canonical condition), ("op", .text Operator.negate.name)]

/-- The canonical forms of several trees. -/
def canonicals : List Predicate → List Json
  | [] => []
  | p :: rest => canonical p :: canonicals rest

end

@[simp] theorem canonicals_eq_map (ps : List Predicate) : canonicals ps = ps.map canonical := by
  induction ps with
  | nil => rfl
  | cons p ps ih => rw [canonicals, ih, List.map_cons]

mutual

/-- **The nesting** of a tree: how many arrays and objects are open at the
deepest point of its canonical form. -/
def nesting : Predicate → Nat
  | .compare _ _ _ => 1
  | .member _ _ => 2
  | .join _ conditions => 2 + maxNesting conditions
  | .negate condition => 1 + nesting condition

/-- The greatest nesting of several trees, zero if there are none. -/
def maxNesting : List Predicate → Nat
  | [] => 0
  | p :: rest => max (nesting p) (maxNesting rest)

end

end FilterTree.Predicate
