import FilterTree.Predicate.Operator
import FilterTree.Value.Basic

/-!
# Predicates

A filter is a **predicate tree**. A leaf compares the value of a key with a
constant or looks it up in a list; a composite joins a list of predicates
or negates one. Composition puts its operands under a new node as they are.
Nothing is flattened, sorted or merged, so a tree records how it was built,
and a conjunction of no conditions is a tree like any other.
-/

namespace FilterTree

/-- **A predicate tree.** -/
inductive Predicate where
  /-- Compares the value of a key with a constant. -/
  | compare (relation : Relation) (key : String) (value : Value)
  /-- Looks the value of a key up in a list. -/
  | member (key : String) (values : List Value)
  /-- Joins conditions in their order. -/
  | join (connective : Connective) (conditions : List Predicate)
  /-- Negates a condition. -/
  | negate (condition : Predicate)
deriving Repr, Inhabited

namespace Predicate

/-! ## Composition -/

/-- Two conditions joined, in their order. -/
def pair (connective : Connective) (p q : Predicate) : Predicate := .join connective [p, q]

/-- A condition joined with another one, if there is another. -/
def pairOption (connective : Connective) (p : Predicate) : Option Predicate → Predicate
  | some q => pair connective p q
  | none => p

/-! ## Inspection -/

/-- The operator of the root. -/
def operator : Predicate → Operator
  | .compare relation _ _ => .compare relation
  | .member _ _ => .member
  | .join connective _ => .join connective
  | .negate _ => .negate

/-- The key of a leaf. -/
def key? : Predicate → Option String
  | .compare _ key _ => some key
  | .member key _ => some key
  | .join _ _ => none
  | .negate _ => none

/-- The constant that a leaf compares with. -/
def value? : Predicate → Option Value
  | .compare _ _ value => some value
  | .member _ _ => none
  | .join _ _ => none
  | .negate _ => none

/-- The list that a leaf looks up in. -/
def values? : Predicate → Option (List Value)
  | .compare _ _ _ => none
  | .member _ values => some values
  | .join _ _ => none
  | .negate _ => none

/-- The conditions directly below the root, in order. -/
def children : Predicate → List Predicate
  | .compare _ _ _ => []
  | .member _ _ => []
  | .join _ conditions => conditions
  | .negate condition => [condition]

mutual

/-- **The depth** of a tree: the most nodes on a way down from the root. -/
def depth : Predicate → Nat
  | .compare _ _ _ => 1
  | .member _ _ => 1
  | .join _ conditions => 1 + maxDepth conditions
  | .negate condition => 1 + depth condition

/-- The greatest depth of several trees, zero if there are none. -/
def maxDepth : List Predicate → Nat
  | [] => 0
  | p :: rest => max (depth p) (maxDepth rest)

end

mutual

/-- **The number of nodes** of a tree. -/
def nodeCount : Predicate → Nat
  | .compare _ _ _ => 1
  | .member _ _ => 1
  | .join _ conditions => 1 + totalNodes conditions
  | .negate condition => 1 + nodeCount condition

/-- The number of nodes of several trees. -/
def totalNodes : List Predicate → Nat
  | [] => 0
  | p :: rest => nodeCount p + totalNodes rest

end

/-! ## Equality and normal form -/

/-- Equality of lists of values, one by one. -/
def sameValues : List Value → List Value → Bool
  | [], [] => true
  | v :: vs, w :: ws => v.same w && sameValues vs ws
  | _, _ => false

@[simp] theorem sameValues_eq_isEqv (vs ws : List Value) :
    sameValues vs ws = vs.isEqv ws Value.same := by
  induction vs generalizing ws with
  | nil => cases ws <;> rfl
  | cons v vs ih =>
    cases ws with
    | nil => rfl
    | cons w ws => rw [sameValues, List.isEqv, ih]

mutual

/-- **Equality of trees**: the same nodes with equal keys and values in the
same places, doubles compared as numbers. -/
def same : Predicate → Predicate → Bool
  | .compare r k v, .compare r' k' v' => r == r' && k == k' && v.same v'
  | .member k vs, .member k' vs' => k == k' && sameValues vs vs'
  | .join c ps, .join c' ps' => c == c' && sameAll ps ps'
  | .negate p, .negate p' => same p p'
  | _, _ => false

/-- Equality of lists of trees, one by one. -/
def sameAll : List Predicate → List Predicate → Bool
  | [], [] => true
  | p :: ps, q :: qs => same p q && sameAll ps qs
  | _, _ => false

end

@[simp] theorem sameAll_eq_isEqv (ps qs : List Predicate) : sameAll ps qs = ps.isEqv qs same := by
  induction ps generalizing qs with
  | nil => cases qs <;> rfl
  | cons p ps ih =>
    cases qs with
    | nil => rfl
    | cons q qs => rw [sameAll, List.isEqv, ih]

mutual

/-- **The normal form** of a tree: every value in it normal, and nothing
else changed. -/
def normalize : Predicate → Predicate
  | .compare relation key value => .compare relation key value.normalize
  | .member key values => .member key (values.map Value.normalize)
  | .join connective conditions => .join connective (normalizeAll conditions)
  | .negate condition => .negate (normalize condition)

/-- The normal forms of several trees. -/
def normalizeAll : List Predicate → List Predicate
  | [] => []
  | p :: rest => normalize p :: normalizeAll rest

end

@[simp] theorem normalizeAll_eq_map (ps : List Predicate) : normalizeAll ps = ps.map normalize := by
  induction ps with
  | nil => rfl
  | cons p ps ih => rw [normalizeAll, ih, List.map_cons]

@[simp] theorem key?_normalize (p : Predicate) : p.normalize.key? = p.key? := by
  cases p <;> rfl

@[simp] theorem values?_normalize (p : Predicate) :
    p.normalize.values? = p.values?.map (List.map Value.normalize) := by
  cases p <;> rfl

end Predicate

end FilterTree
