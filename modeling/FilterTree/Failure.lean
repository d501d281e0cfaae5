import FilterTree.Predicate.Operator

/-!
# Failures

Why a filter could not be built. The first three failures are faults of a
leaf; the last is that of a document which does not describe a filter.
-/

namespace FilterTree

/-- **Why a filter could not be built.** -/
inductive Failure where
  /-- A leaf has the empty key. -/
  | emptyKey (operator : Operator)
  /-- A list to look up in is empty. -/
  | emptyValues (key : String)
  /-- A leaf was given a number that is not finite. -/
  | notFinite (operator : Operator) (key : String)
  /-- A document does not describe a filter, for the reason given. -/
  | undecodable (reason : String)
deriving DecidableEq, Repr

/-- **The kinds of failure** that a caller may tell apart without knowing
the failures. -/
inductive FailureKind where
  /-- A leaf was asked for that means nothing. -/
  | invalidArgument
  /-- A document could not be decoded. -/
  | decode
deriving DecidableEq, Repr

namespace Failure

/-- The kind of a failure. -/
def kind : Failure → FailureKind
  | .undecodable _ => .decode
  | .emptyKey _ => .invalidArgument
  | .emptyValues _ => .invalidArgument
  | .notFinite _ _ => .invalidArgument

/-- **The message** of a failure, which names the key as it is. -/
def message : Failure → String
  | .undecodable reason => String.join ["canonical form decode failed: ", reason]
  | .emptyKey operator => String.join [operator.name, " predicate requires a non-empty key"]
  | .emptyValues key =>
    String.join ["IN predicate on '", key, "' requires at least one value"]
  | .notFinite operator key =>
    String.join [operator.name, " predicate on '", key, "' received a non-finite float"]

end Failure

namespace FailureKind

/-- The label of a kind in logs. -/
def label : FailureKind → String
  | .invalidArgument => "invalid_argument"
  | .decode => "decode"

/-- The name of a kind in messages. -/
def phrase : FailureKind → String
  | .invalidArgument => "invalid argument"
  | .decode => "decode"

/-- The name of a kind in serialized reports. -/
def name : FailureKind → String
  | .invalidArgument => "InvalidArgument"
  | .decode => "Decode"

/-- All kinds, in the order in which messages list them. -/
def all : List FailureKind := [.invalidArgument, .decode]

/-- The kind of a name. -/
def ofName? (name : String) : Option FailureKind := all.find? (·.name == name)

@[simp] theorem ofName?_name (kind : FailureKind) : ofName? kind.name = some kind := by
  cases kind <;> rfl

end FailureKind

end FilterTree
