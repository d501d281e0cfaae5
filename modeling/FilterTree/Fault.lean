import FilterTree.Failure
import FilterTree.Json.Writer
import FilterTree.Text.Quotation

/-!
# Faults of a document

A document may be well formed and still not be what a decoder expects. A
`DecodeFault` says what is amiss, as a cause: what was found (`Found`) and
what was expected in its place (`Expectation`), or which field of an object
is at fault. Its wording is a function of the cause (`DecodeFault.message`).

A decoder that reads a text meets a second fault besides, that the text is
no JSON from some point on. `ReadFault` has both. A text is read from left
to right, so of several faults the first to be met is the one reported.
-/

namespace FilterTree

/-- **What a decoder found.** -/
inductive Found where
  /-- A document with the given head. -/
  | document (head : Head)
  /-- A signed integer wider than any that a value holds. -/
  | wideSigned (n : Int)
  /-- An unsigned integer wider than any that a value holds. -/
  | wideUnsigned (n : Nat)
  /-- An array of bytes. -/
  | bytes
  /-- A wrapper around another value. -/
  | wrapper
deriving DecidableEq, Repr

/-- **What a decoder expected.** -/
inductive Expectation where
  /-- A value to compare with. -/
  | value
  /-- A node of a filter. -/
  | node
  /-- The name of one of several variants. -/
  | variant
  /-- The place of an operator in the order. -/
  | operatorIndex
  /-- As many fields as the operator's nodes have. -/
  | fieldsOf (operator : Operator)
  /-- No more elements than these. -/
  | count (n : Nat)
  /-- Fewer elements. -/
  | fewer
  /-- A string. -/
  | text
  /-- An array. -/
  | sequence
  /-- A boolean. -/
  | flag
  /-- Nothing, as a value. -/
  | nothing
  /-- A policy. -/
  | policy
  /-- A report of a failure. -/
  | report
  /-- Both fields of a report. -/
  | reportFields
  /-- A kind of failure: a string or an object. -/
  | kind
  /-- A kind of failure: an object with one entry. -/
  | kindEntry
deriving DecidableEq, Repr

/-- **What is amiss with a document.** -/
inductive DecodeFault where
  /-- Something of another type was expected. -/
  | wrongType (found : Found) (expected : Expectation)
  /-- Something of this type was expected, but not this. -/
  | wrongValue (found : Found) (expected : Expectation)
  /-- An array has too few or too many elements. -/
  | wrongLength (length : Nat) (expected : Expectation)
  /-- An object lacks a field. -/
  | missingField (name : String)
  /-- An object has a field twice. -/
  | duplicateField (name : String)
  /-- A name is none of those known. -/
  | unknownVariant (name : String) (known : List String)
  /-- A number is not finite. -/
  | notFinite
  /-- The shape is right, but a leaf is refused. -/
  | refused (failure : Failure)
deriving DecidableEq, Repr

/-- **What is amiss with a text.** -/
inductive ReadFault where
  /-- The text is not JSON, or exceeds a limit of the reader. -/
  | malformed
  /-- The document read so far is at fault. -/
  | data (fault : DecodeFault)
deriving DecidableEq, Repr

/-! ## Wording -/

/-- A name in the quotes that messages use for names. -/
def ticked (s : String) : String := String.join ["`", s, "`"]

/-- The description of the head of a document. -/
def Head.describe : Head → String
  | .null => "null"
  | .bool b => String.join ["boolean ", ticked (if b then "true" else "false")]
  | .number (.integer n _ _) =>
    String.join ["integer ", ticked (String.ofList (signedDigits n))]
  | .number (.float x) => String.join ["floating point ", ticked (String.ofList x.jsonText)]
  | .text s => String.join ["string ", String.ofList (quotation s [])]
  | .array => "sequence"
  | .object => "map"

/-- The description of what was found. -/
def Found.describe : Found → String
  | .document head => head.describe
  | .wideSigned n =>
    String.join ["integer ", ticked (String.ofList (signedDigits n)), " as i128"]
  | .wideUnsigned n => String.join ["integer ", ticked (String.ofList (digits n)), " as u128"]
  | .bytes => "byte array"
  | .wrapper => "newtype struct"

/-- A number of elements. -/
def elements (n : Nat) : String :=
  String.join [String.ofList (digits n), if n = 1 then " element" else " elements"]

/-- How many fields the nodes of an operator have. -/
def Operator.fieldCount : Operator → Nat
  | .compare _ => 2
  | .member => 2
  | .join _ => 1
  | .negate => 1

/-- The word for an operator in the description of its node. -/
def Operator.word : Operator → String
  | .compare .equal => "Eq"
  | .member => "In"
  | .compare .greater => "Gt"
  | .compare .less => "Lt"
  | .join .and => "And"
  | .join .or => "Or"
  | .negate => "Not"

/-- The description of what was expected. -/
def Expectation.describe : Expectation → String
  | .value => "a null, boolean, finite number, or string"
  | .node => "internally tagged enum ExprWire"
  | .variant => "variant identifier"
  | .operatorIndex => "variant index 0 <= i < 7"
  | .fieldsOf operator =>
    String.join ["struct variant ExprWire::", operator.word, " with ",
      elements operator.fieldCount]
  | .count n => String.join [elements n, " in sequence"]
  | .fewer => "fewer elements in array"
  | .text => "a string"
  | .sequence => "a sequence"
  | .flag => "a boolean"
  | .nothing => "unit"
  | .policy => "struct BuildPolicy"
  | .report => "struct Error"
  | .reportFields => "struct Error with 2 elements"
  | .kind => "string or map"
  | .kindEntry => "map with a single key"

/-- The names that were possible: one of two, or one of a longer list. -/
def alternatives : List String → String
  | [first, second] => String.join [ticked first, " or ", ticked second]
  | names => String.join ["one of ", String.intercalate ", " (names.map ticked)]

/-- **The message** of a fault. -/
def DecodeFault.message : DecodeFault → String
  | .wrongType found expected =>
    String.join ["invalid type: ", found.describe, ", expected ", expected.describe]
  | .wrongValue found expected =>
    String.join ["invalid value: ", found.describe, ", expected ", expected.describe]
  | .wrongLength length expected =>
    String.join ["invalid length ", String.ofList (digits length), ", expected ",
      expected.describe]
  | .missingField name => String.join ["missing field ", ticked name]
  | .duplicateField name => String.join ["duplicate field ", ticked name]
  | .unknownVariant name known =>
    String.join ["unknown variant ", ticked name, ", expected ", alternatives known]
  | .notFinite => "non-finite float"
  | .refused failure => failure.message

end FilterTree
