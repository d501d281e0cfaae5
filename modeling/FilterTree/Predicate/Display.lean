import FilterTree.Predicate.Basic

/-!
# Predicates for people

The text of a tree for logs and messages. Keys stand as they are, operators
between their operands, joined conditions in parentheses. A conjunction of
no conditions is the word for truth and a disjunction of none that for
falsehood.
-/

namespace FilterTree

/-- The sign of a comparison. -/
def Relation.sign : Relation → Char
  | .equal => '='
  | .greater => '>'
  | .less => '<'

/-- The word between joined conditions. -/
def Connective.word : Connective → List Char
  | .and => ['A', 'N', 'D']
  | .or => ['O', 'R']

/-- The word for a join of no conditions. -/
def Connective.unit : Connective → List Char
  | .and => ['T', 'R', 'U', 'E']
  | .or => ['F', 'A', 'L', 'S', 'E']

namespace Predicate

/-- The values of a list after the first. -/
def displayMore : List Value → List Char → List Char
  | [], rest => rest
  | v :: vs, rest => ',' :: ' ' :: v.display (displayMore vs rest)

/-- The values of a list, with commas between them. -/
def displayValues : List Value → List Char → List Char
  | [], rest => rest
  | v :: vs, rest => v.display (displayMore vs rest)

mutual

/-- **The text of a tree**, in front of what follows. -/
def display : Predicate → List Char → List Char
  | .compare relation key value, rest =>
    key.toList ++ ' ' :: relation.sign :: ' ' :: value.display rest
  | .member key values, rest =>
    key.toList ++ ' ' :: 'I' :: 'N' :: ' ' :: '[' :: displayValues values (']' :: rest)
  | .join connective [], rest => connective.unit ++ rest
  | .join connective (p :: ps), rest =>
    '(' :: display p (displayJoined connective ps (')' :: rest))
  | .negate condition, rest => 'N' :: 'O' :: 'T' :: ' ' :: display condition rest

/-- The conditions of a join after the first. -/
def displayJoined (connective : Connective) : List Predicate → List Char → List Char
  | [], rest => rest
  | p :: ps, rest =>
    ' ' :: (connective.word ++ ' ' :: display p (displayJoined connective ps rest))

end

/-- The text of a tree for people. -/
def toText (p : Predicate) : String := String.ofList (p.display [])

end Predicate

end FilterTree
