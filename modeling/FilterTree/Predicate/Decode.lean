import FilterTree.Policy.Basic
import FilterTree.Value.Decode

/-!
# Decoding predicates

A node is described by an object, with its operator under `op` and its
parts under their names, or by an array, with the operator first and the
parts in order. The operator of an object may stand anywhere in it. It is
decoded before the parts, because it says what they are; the parts are then
decoded in the order in which the object has them. Entries with other names
say nothing.

An operator goes by its name. A node below another one may also give its
place in the order of operators (`Operator.all`); the root may not.

Decoding has two parts that do not mix. First the whole document must have
the **shape** of a tree (`Predicate.ofShape`). Only then are the leaves
built again under the strict policy, so a wrong type anywhere is reported
before an empty key anywhere, and a document of the wrong shape leaves no
trace in a log.
-/

namespace FilterTree

/-- **Where a node stands.** -/
inductive Place where
  /-- At the root of a tree. -/
  | root
  /-- Below another node. -/
  | child
deriving DecidableEq, Repr

/-- **The operator of a head.** -/
def Operator.ofHead (place : Place) : Head → Except DecodeFault Operator
  | .text name =>
    match ofName? name with
    | some operator => .ok operator
    | none => .error (.unknownVariant name (all.map Operator.name))
  | .number (.integer n lower upper) =>
    let head := Head.number (.integer n lower upper)
    if place = .child ∧ 0 ≤ n then
      match ofIndex? n.toNat with
      | some operator => .ok operator
      | none => .error (.wrongValue (.document head) .operatorIndex)
    else .error (head.unexpected .variant)
  | head => .error (head.unexpected .variant)

namespace Predicate

/-! ## Leaves -/

/-- The field of a leaf's key. -/
def keyField : Field Json DecodeFault String := ⟨"key", fun j => j.head.asText⟩

/-- The field of the constant that a leaf compares with. -/
def valueField : Field Json DecodeFault Value := ⟨"value", Value.ofJson⟩

/-- The field of the list that a leaf looks up in. -/
def valuesField : Field Json DecodeFault (List Value) := ⟨"values", Value.listOfJson⟩

/-- **Two parts of a node in an object.** -/
def partsAmong {α β : Type} (first : Field Json DecodeFault α) (second : Field Json DecodeFault β)
    (entries : List (String × Json)) : Except DecodeFault (α × β) := do
  let (a, b) ← fieldsAmong .ofJson first second none none entries
  let a ← required first.name a
  let b ← required second.name b
  .ok (a, b)

/-- **Two parts of a node in an array**, after the operator. -/
def partsInOrder {α β : Type} (operator : Operator) (first : Field Json DecodeFault α)
    (second : Field Json DecodeFault β) : List Json → Except DecodeFault (α × β)
  | [] => .error (.wrongLength 0 (.fieldsOf operator))
  | [x] => do
    let _ ← first.decode x
    .error (.wrongLength 1 (.fieldsOf operator))
  | x :: y :: more => do
    let a ← first.decode x
    let b ← second.decode y
    if more.isEmpty then .ok (a, b) else .error (.wrongLength (2 + more.length) (.count 2))

/-! ## Nodes -/

/-- **The operator among entries**, given the one met before. -/
def operatorAmong (place : Place) :
    Option Operator → List (String × Json) → Except DecodeFault Operator
  | found, [] => required "op" found
  | found, (name, value) :: rest =>
    if name = "op" then
      if found.isSome then .error (.duplicateField "op")
      else do
        let operator ← Operator.ofHead place value.head
        operatorAmong place (some operator) rest
    else operatorAmong place found rest

mutual

/-- **The tree that a document has the shape of.** -/
def ofNode (place : Place) : Json → Except DecodeFault Predicate
  | .object entries => do
    match ← operatorAmong place none entries with
    | .compare relation =>
      let (key, value) ← partsAmong keyField valueField entries
      .ok (.compare relation key value)
    | .member =>
      let (key, values) ← partsAmong keyField valuesField entries
      .ok (.member key values)
    | .join connective =>
      let conditions ← conditionsAmong none entries
      .ok (.join connective conditions)
    | .negate =>
      let condition ← conditionAmong none entries
      .ok (.negate condition)
  | .array [] => .error (.missingField "op")
  | .array (tag :: parts) => do
    let operator ← Operator.ofHead place tag.head
    ofParts operator parts
  | .null => .error (Head.null.unexpected .node)
  | .bool b => .error ((Head.bool b).unexpected .node)
  | .number n => .error ((Head.number n).unexpected .node)
  | .text s => .error ((Head.text s).unexpected .node)

/-- The node of an operator and its parts in order. -/
def ofParts : Operator → List Json → Except DecodeFault Predicate
  | .compare relation, parts => do
    let (key, value) ← partsInOrder (.compare relation) keyField valueField parts
    .ok (.compare relation key value)
  | .member, parts => do
    let (key, values) ← partsInOrder .member keyField valuesField parts
    .ok (.member key values)
  | .join connective, [] => .error (.wrongLength 0 (.fieldsOf (.join connective)))
  | .join connective, list :: more => do
    let conditions ← ofConditions list
    if more.isEmpty then .ok (.join connective conditions)
    else .error (.wrongLength (1 + more.length) (.count 1))
  | .negate, [] => .error (.wrongLength 0 (.fieldsOf .negate))
  | .negate, node :: more => do
    let condition ← ofNode .child node
    if more.isEmpty then .ok (.negate condition)
    else .error (.wrongLength (1 + more.length) (.count 1))

/-- The list of conditions among entries, given the one met before. -/
def conditionsAmong :
    Option (List Predicate) → List (String × Json) → Except DecodeFault (List Predicate)
  | found, [] => required "conditions" found
  | found, (name, value) :: rest =>
    if name = "conditions" then
      if found.isSome then .error (.duplicateField "conditions")
      else do
        let conditions ← ofConditions value
        conditionsAmong (some conditions) rest
    else conditionsAmong found rest

/-- The single condition among entries, given the one met before. -/
def conditionAmong :
    Option Predicate → List (String × Json) → Except DecodeFault Predicate
  | found, [] => required "condition" found
  | found, (name, value) :: rest =>
    if name = "condition" then
      if found.isSome then .error (.duplicateField "condition")
      else do
        let condition ← ofNode .child value
        conditionAmong (some condition) rest
    else conditionAmong found rest

/-- The trees of an array of conditions. -/
def ofConditions : Json → Except DecodeFault (List Predicate)
  | .array items => ofNodes items
  | j => .error (j.head.unexpected .sequence)

/-- The trees of several nodes below another one. -/
def ofNodes : List Json → Except DecodeFault (List Predicate)
  | [] => .ok []
  | item :: rest => do
    let p ← ofNode .child item
    let ps ← ofNodes rest
    .ok (p :: ps)

end

/-- **The shape of a document**: the tree it describes, with no leaf
checked. -/
def ofShape (j : Json) : Except DecodeFault Predicate := ofNode .root j

/-! ## Checking -/

/-- Builds a tree again under the strict policy, after its shape has been
decoded. -/
def checked (shape : Predicate) : Traced (Except DecodeFault Predicate) := do
  let outcome ← (Policy.strict.rebuild shape).run
  pure (outcome.mapError .refused)

/-- Decodes a document to a tree of valid leaves. -/
def decode (j : Json) : Traced (Except DecodeFault Predicate) :=
  match ofShape j with
  | .ok shape => checked shape
  | .error fault => pure (.error fault)

/-- **The tree of a canonical form**, or of any other document that
describes one. -/
def ofCanonical (j : Json) : Build Predicate := do
  match ← (decode j : Build (Except DecodeFault Predicate)) with
  | .ok p => pure p
  | .error fault => throw (.undecodable fault.message)

end Predicate

end FilterTree
