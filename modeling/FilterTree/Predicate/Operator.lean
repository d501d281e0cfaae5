/-!
# Operators

What a node of a filter does: a leaf compares the value of a key with a
constant or looks it up in a list, and a composite joins conditions or
negates one. Every operator has a name by which serialized filters refer to
it, and a place in a fixed order by which they may refer to it too.
-/

namespace FilterTree

/-- **How a leaf compares** the value of its key with its constant. -/
inductive Relation where
  /-- Equal to it. -/
  | equal
  /-- Greater than it. -/
  | greater
  /-- Less than it. -/
  | less
deriving DecidableEq, Repr

/-- **How a composite joins** its conditions. -/
inductive Connective where
  /-- All of them. -/
  | and
  /-- Any of them. -/
  | or
deriving DecidableEq, Repr

/-- **What a node does.** -/
inductive Operator where
  /-- Compares with a constant. -/
  | compare (relation : Relation)
  /-- Looks the value up in a list. -/
  | member
  /-- Joins conditions. -/
  | join (connective : Connective)
  /-- Negates a condition. -/
  | negate
deriving DecidableEq, Repr

namespace Operator

/-- **The name** of an operator in serialized filters. -/
def name : Operator → String
  | .compare .equal => "EQ"
  | .member => "IN"
  | .compare .greater => "GT"
  | .compare .less => "LT"
  | .join .and => "AND"
  | .join .or => "OR"
  | .negate => "NOT"

/-- **All operators** in their order. -/
def all : List Operator :=
  [.compare .equal, .member, .compare .greater, .compare .less, .join .and, .join .or, .negate]

/-- The operator of a name. -/
def ofName? (name : String) : Option Operator := all.find? (·.name == name)

@[simp] theorem ofName?_name (operator : Operator) : ofName? operator.name = some operator := by
  cases operator with
  | compare relation => cases relation <;> rfl
  | member => rfl
  | join connective => cases connective <;> rfl
  | negate => rfl

/-- The operator at a place of the order, counted from zero. -/
def ofIndex? (index : Nat) : Option Operator := all[index]?

/-- Whether the nodes of an operator are leaves. -/
def isLeaf : Operator → Bool
  | .compare _ => true
  | .member => true
  | .join _ => false
  | .negate => false

end Operator

end FilterTree
