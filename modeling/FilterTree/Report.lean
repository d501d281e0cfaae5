import FilterTree.Decoding

/-!
# Reports

A failure is reported to other programs as its kind and its message. A
**report** has a document of its own: an object with both, or an array of
both in order. The kind goes by its name, which may stand alone or as the
only name of an object whose value is null.

Reports are read from texts as well. There a kind of any other form is not
so much a wrong type as no kind at all, and counts as a fault of the text;
from a document it is a fault of type. That includes an object with a
number, say, where its first name has to begin: the text is torn there, and
has no document to find a wrong type in.
-/

namespace FilterTree

/-- **A report of a failure.** -/
structure Report where
  /-- The kind of the failure. -/
  kind : FailureKind
  /-- Its message. -/
  message : String
deriving DecidableEq, Repr

namespace Report

/-- The report of a failure. -/
def ofFailure (failure : Failure) : Report := ⟨failure.kind, failure.message⟩

/-- The text of a report for people. -/
def toText (report : Report) : String :=
  String.join [report.kind.phrase, ": ", report.message]

/-- The name of the field of the kind. -/
def kindName : String := "kind"

/-- The name of the field of the message. -/
def messageName : String := "message"

/-- **The document of a report.** -/
def toJson (report : Report) : Json :=
  .object [(kindName, .text report.kind.name), (messageName, .text report.message)]

@[simp] theorem normalize_toJson (report : Report) : report.toJson.normalize = report.toJson := rfl

/-! ## Kinds -/

/-- The kind of a name. -/
def kindOfName (name : String) : Except DecodeFault FailureKind :=
  match FailureKind.ofName? name with
  | some kind => .ok kind
  | none => .error (.unknownVariant name (FailureKind.all.map FailureKind.name))

/-- The null that stands beside the name of a kind. -/
def nothing : Head → Except DecodeFault Unit
  | .null => .ok ()
  | head => .error (head.unexpected .nothing)

@[simp] theorem nothing_head_eq_ok_iff {j : Json} {u : Unit} :
    nothing j.head = .ok u ↔ j = .null := by
  cases j <;> simp [Json.head, nothing]

/-- **The kind of a document.** -/
def kindOfJson : Json → Except DecodeFault FailureKind
  | .text name => kindOfName name
  | .object [(name, value)] => do
    let kind ← kindOfName name
    nothing value.head
    .ok kind
  | .object _ => .error (.wrongValue (.document .object) .kindEntry)
  | j => .error (j.head.unexpected .kind)

/-- **The kind of a text.** What stands where the name of an object has to
begin is not decoded: unless it is a string the text is torn there. -/
def kindOfOutline : Outline → Except ReadFault FailureKind
  | .text pieces => do
    let name ← orMalformed (textOf? pieces)
    asData (kindOfName name)
  | .object ((name, value) :: more) closed => do
    let name ← orMalformed (textOf? name)
    let kind ← asData (kindOfName name)
    let head ← value.head
    asData (nothing head)
    closing (closed && more.isEmpty)
    .ok kind
  | _ => .error .malformed

/-! ## Whole reports -/

/-- The message of a document. -/
def messageOfJson (j : Json) : Except DecodeFault String := j.head.asText

/-- The message of a text. -/
def messageOfOutline (o : Outline) : Except ReadFault String := do
  let head ← o.head
  asData head.asText

/-- The report of the fields that are given. -/
def ofFields (kind : Option FailureKind) (message : Option String) :
    Except DecodeFault Report := do
  let kind ← required kindName kind
  let message ← required messageName message
  .ok ⟨kind, message⟩

/-- **The report of a document.** -/
def ofJson : Json → Except DecodeFault Report
  | .object entries => do
    let (kind, message) ← fieldsAmong .ofJson ⟨kindName, kindOfJson⟩ ⟨messageName, messageOfJson⟩
      none none entries
    ofFields kind message
  | .array [] => .error (.wrongLength 0 .reportFields)
  | .array [x] => do
    let _ ← kindOfJson x
    .error (.wrongLength 1 .reportFields)
  | .array (x :: y :: more) => do
    let kind ← kindOfJson x
    let message ← messageOfJson y
    if more.isEmpty then .ok ⟨kind, message⟩
    else .error (.wrongLength (2 + more.length) .fewer)
  | j => .error (j.head.unexpected .report)

/-- The report that an outline describes. -/
def ofOutline : Outline → Except ReadFault Report
  | .object entries closed => do
    let (kind, message) ← fieldsAmong .ofOutline ⟨kindName, kindOfOutline⟩
      ⟨messageName, messageOfOutline⟩ none none entries
    closing closed
    asData (ofFields kind message)
  | .array [] closed => do
    closing closed
    .error (.data (.wrongLength 0 .reportFields))
  | .array [x] closed => do
    let _ ← kindOfOutline x
    closing closed
    .error (.data (.wrongLength 1 .reportFields))
  | .array (x :: y :: more) closed => do
    let kind ← kindOfOutline x
    let message ← messageOfOutline y
    closing (closed && more.isEmpty)
    .ok ⟨kind, message⟩
  | o => do
    let head ← o.head
    .error (.data (head.unexpected .report))

/-- **The report of a text.** -/
def ofText (text : String) : Except ReadFault Report :=
  (Reading.ofText text).decode ofOutline

end Report

end FilterTree
