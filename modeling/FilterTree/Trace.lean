import FilterTree.Predicate.Canonical
import FilterTree.Failure

/-!
# Traces

What the library tells a log while it works. Refusing a leaf is an event,
and so is putting a tree into its canonical form for a caller; everything
else is silent. An action that may emit events is `Traced`, and one that
may fail besides is a `Build`. Leaves are refused by `reject` and in no
other way, so each refusal has one event, emitted when it happens.
-/

namespace FilterTree

/-- **What happened**, as told to a log. -/
inductive Event where
  /-- A leaf was refused. -/
  | rejected (failure : Failure)
  /-- A tree was put into its canonical form: the operator of its root, the
  number of its nodes and its depth. -/
  | serializing (operator : Operator) (nodes : Nat) (depth : Nat)
deriving DecidableEq, Repr

namespace Event

/-- **How an event is graded** in a log. -/
inductive Level where
  /-- Says why something was not done. -/
  | debug
  /-- Says what is being done. -/
  | trace
deriving DecidableEq, Repr

/-- The name of a level in logs. -/
def Level.name : Level → String
  | .debug => "DEBUG"
  | .trace => "TRACE"

/-- **What a field of an event holds.** -/
inductive Detail where
  /-- A text. -/
  | text (s : String)
  /-- A number. -/
  | count (n : Nat)
deriving DecidableEq, Repr

/-- The level of an event. -/
def level : Event → Level
  | .rejected _ => .debug
  | .serializing _ _ _ => .trace

/-- **The message** of an event, which does not depend on what it is about. -/
def message : Event → String
  | .rejected _ => "rejected filter predicate"
  | .serializing _ _ _ => "serializing filter expression"

/-- **The fields** of an event, which say what it is about. -/
def fields : Event → List (String × Detail)
  | .rejected failure =>
    [("class", .text failure.kind.label), ("error", .text failure.message)]
  | .serializing operator nodes depth =>
    [("op", .text operator.name), ("nodes", .count nodes), ("depth", .count depth)]

/-- **The record of a refusal**: an event at the level of what was not done, in
the class of bad arguments and with the text of an error. -/
structure RecordsRefusal (event : Event) (error : String) : Prop where
  /-- It is graded as a refusal. -/
  level_eq : event.level = .debug
  /-- Its message is that of refusals. -/
  message_eq : event.message = "rejected filter predicate"
  /-- Its fields are the class and the error. -/
  fields_eq : event.fields = [("class", .text "invalid_argument"), ("error", .text error)]

/-- A refused leaf is recorded with the message of its failure. -/
theorem recordsRefusal_rejected {failure : Failure} (h : failure.kind = .invalidArgument) :
    (rejected failure).RecordsRefusal failure.message where
  level_eq := rfl
  message_eq := rfl
  fields_eq := by rw [fields, h]; rfl

end Event

/-- **An action that may emit events**, which are kept in order. -/
abbrev Traced (α : Type) : Type := StateM (List Event) α

/-- **An action that may fail** and emit events. -/
abbrev Build (α : Type) : Type := ExceptT Failure (StateM (List Event)) α

/-- Emits an event. -/
def emit (event : Event) : Traced Unit := modify (· ++ [event])

/-- Fails, and emits that. -/
def reject {α : Type} (failure : Failure) : Build α := do
  emit (.rejected failure)
  throw failure

/-- The canonical form of a tree for a caller. -/
def Predicate.serialize (p : Predicate) : Traced Json := do
  emit (.serializing p.operator p.nodeCount p.depth)
  pure p.canonical

/-- The outcome of an action from an empty log, and what it logged. -/
def Traced.outcome {α : Type} (action : Traced α) : α × List Event := action.run []

end FilterTree
