import FilterTree.Predicate.Decode

/-!
# Reading predicates

A tree may be decoded straight from a text. The document of the text is
then made only on the way, and what is amiss with the root is reported
where it is met: the operator of the root is decoded as soon as it has been
read, before the rest of the text has been looked at, and a second operator
is refused before its value. The other entries or elements of the root must
be read in full first, since the operator may come last.

Once the root has been read to its closing bracket, decoding goes on from
its document as from any other (`Predicate.ofShape`).
-/

namespace FilterTree.Predicate

/-- How many arrays and objects may be open within the root. -/
def levelsBelowRoot : Nat := maxLevels - 1

/-- The operator that stands at the root of a text, as a document. -/
def rootOperator (o : Outline) : Except ReadFault Json := do
  let head ← o.head
  let operator ← asData (Operator.ofHead .root head)
  .ok (.text operator.name)

/-- The document of a part of the root. -/
def rootPart (o : Outline) : Except ReadFault Json :=
  orMalformed (o.toJson? levelsBelowRoot)

/-- **The entries of a root object**, with the operator decoded as it is
met, given whether one has been met before. -/
def rootEntries :
    Bool → List (List Piece × Outline) → Except ReadFault (List (String × Json))
  | _, [] => .ok []
  | found, (name, value) :: rest => do
    let name ← orMalformed (textOf? name)
    if name = "op" then
      if found then .error (.data (.duplicateField "op"))
      else
        let operator ← rootOperator value
        let entries ← rootEntries true rest
        .ok ((name, operator) :: entries)
    else
      let value ← rootPart value
      let entries ← rootEntries found rest
      .ok ((name, value) :: entries)

/-- The parts of a root array, after the operator. -/
def rootParts : List Outline → Except ReadFault (List Json)
  | [] => .ok []
  | item :: rest => do
    let part ← rootPart item
    let parts ← rootParts rest
    .ok (part :: parts)

/-- **The document of a root**, unless its text is torn or its operator is
at fault. -/
def rootDocument : Outline → Except ReadFault Json
  | .object entries closed => do
    let entries ← rootEntries false entries
    closing closed
    .ok (.object entries)
  | .array [] closed => do
    closing closed
    .ok (.array [])
  | .array (tag :: parts) closed => do
    let operator ← rootOperator tag
    let parts ← rootParts parts
    closing closed
    .ok (.array (operator :: parts))
  | o => do
    let head ← o.head
    .error (.data (head.unexpected .node))

/-- The tree that an outline has the shape of. -/
def ofOutline (o : Outline) : Except ReadFault Predicate := do
  let document ← rootDocument o
  asData (ofShape document)

/-- **The tree of a text.** What follows the value is looked at last, when
its leaves have been checked. -/
def ofText (text : String) : Traced (Except ReadFault Predicate) := do
  let reading := Reading.ofText text
  match ofOutline reading.outline with
  | .error fault => pure (.error fault)
  | .ok shape =>
    match ← checked shape with
    | .error fault => pure (.error (.data fault))
    | .ok p => pure (if reading.trailing then .error .malformed else .ok p)

end FilterTree.Predicate
