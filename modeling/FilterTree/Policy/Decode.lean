import FilterTree.Policy.Basic
import FilterTree.Decoding

/-!
# Serialized policies

A policy is described by an object with its two flags, or by an array with
the flags in order. A flag that is not given is off, so a document that
says nothing describes the strict policy. More than two elements are a
fault; other entries of an object are passed over.
-/

namespace FilterTree.Policy

/-- The name of the first flag. -/
def emptyKeyName : String := "allow_empty_key"

/-- The name of the second flag. -/
def emptyValuesName : String := "allow_empty_values"

/-- **The document of a policy.** -/
def toJson (policy : Policy) : Json :=
  .object [(emptyKeyName, .bool policy.allowEmptyKey),
    (emptyValuesName, .bool policy.allowEmptyValues)]

/-- The policy of the flags that are given. -/
def ofFlags (emptyKey emptyValues : Option Bool) : Policy where
  allowEmptyKey := emptyKey.getD false
  allowEmptyValues := emptyValues.getD false

/-- A flag, from a document. -/
def flagOfJson (j : Json) : Except DecodeFault Bool := j.head.asFlag

@[simp] theorem flagOfJson_eq_ok_iff {j : Json} {flag : Bool} :
    flagOfJson j = .ok flag ↔ j = .bool flag := by
  cases j <;> simp [flagOfJson, Json.head, Head.asFlag]

/-- A flag, from a text. -/
def flagOfOutline (o : Outline) : Except ReadFault Bool := do
  let head ← o.head
  asData head.asFlag

/-- **The policy of a document.** -/
def ofJson : Json → Except DecodeFault Policy
  | .object entries => do
    let (a, b) ← fieldsAmong .ofJson ⟨emptyKeyName, flagOfJson⟩ ⟨emptyValuesName, flagOfJson⟩
      none none entries
    .ok (ofFlags a b)
  | .array [] => .ok (ofFlags none none)
  | .array [x] => do
    let a ← flagOfJson x
    .ok (ofFlags (some a) none)
  | .array (x :: y :: more) => do
    let a ← flagOfJson x
    let b ← flagOfJson y
    if more.isEmpty then .ok (ofFlags (some a) (some b))
    else .error (.wrongLength (2 + more.length) .fewer)
  | j => .error (j.head.unexpected .policy)

/-- The policy that an outline describes. -/
def ofOutline : Outline → Except ReadFault Policy
  | .object entries closed => do
    let (a, b) ← fieldsAmong .ofOutline ⟨emptyKeyName, flagOfOutline⟩
      ⟨emptyValuesName, flagOfOutline⟩ none none entries
    closing closed
    .ok (ofFlags a b)
  | .array [] closed => do
    closing closed
    .ok (ofFlags none none)
  | .array [x] closed => do
    let a ← flagOfOutline x
    closing closed
    .ok (ofFlags (some a) none)
  | .array (x :: y :: more) closed => do
    let a ← flagOfOutline x
    let b ← flagOfOutline y
    closing (closed && more.isEmpty)
    .ok (ofFlags (some a) (some b))
  | o => do
    let head ← o.head
    .error (.data (head.unexpected .policy))

/-- **The policy of a text.** -/
def ofText (text : String) : Except ReadFault Policy :=
  (Reading.ofText text).decode ofOutline

end FilterTree.Policy
