import FilterTree.Decoding
import FilterTree.Value.Basic

/-!
# Decoding values

A value is decoded from the head of a document: an array or an object is
refused as soon as it opens, whatever is in it. Numbers come out normal.
Since a head is all that is looked at, a document and a text of it decode
alike.
-/

namespace FilterTree.Value

/-- **The value of a head.** -/
def ofHead : Head → Except DecodeFault Value
  | .null => .ok .null
  | .bool b => .ok (.bool b)
  | .number n => .ok (ofNumber n)
  | .text s => .ok (.text s)
  | head => .error (head.unexpected .value)

/-- The value of a document. -/
def ofJson (j : Json) : Except DecodeFault Value := ofHead j.head

/-- **A value read back** from its document is its normal form. -/
@[simp] theorem ofJson_toJson (v : Value) : ofJson v.toJson = .ok v.normalize := by
  cases v with
  | int n =>
    have h : n.toInt < 0x8000000000000000 := Int64.toInt_lt n
    simp [ofJson, toJson, Json.head, ofHead, ofNumber, normalize, h]
  | uint n =>
    have h : ((n.toNat : Int) < 0x8000000000000000) ↔ n.toNat < 0x8000000000000000 := by omega
    simp only [ofJson, toJson, Json.head, ofHead, ofNumber, normalize, ofUInt64, h,
      Int.toNat_natCast, UInt64.ofNat_toNat]
  | null => rfl
  | bool b => rfl
  | float x => rfl
  | text s => rfl

/-- The values of several documents. -/
def ofJsons : List Json → Except DecodeFault (List Value)
  | [] => .ok []
  | item :: rest => do
    let value ← ofJson item
    let values ← ofJsons rest
    .ok (value :: values)

/-- The values of an array. -/
def listOfJson : Json → Except DecodeFault (List Value)
  | .array items => ofJsons items
  | j => .error (j.head.unexpected .sequence)

/-- The value that an outline begins with. -/
def ofOutline (o : Outline) : Except ReadFault Value := do
  let head ← o.head
  asData (ofHead head)

/-- The values of the items of an array in a text. -/
def ofOutlines : List Outline → Except ReadFault (List Value)
  | [] => .ok []
  | item :: rest => do
    let value ← ofOutline item
    let values ← ofOutlines rest
    .ok (value :: values)

/-- The values of an array in a text. -/
def listOfOutline : Outline → Except ReadFault (List Value)
  | .array items closed => do
    let values ← ofOutlines items
    closing closed
    .ok values
  | o => do
    let head ← o.head
    .error (.data (head.unexpected .sequence))

/-- **The value of a text.** -/
def ofText (text : String) : Except ReadFault Value :=
  (Reading.ofText text).decode ofOutline

/-- The list of values of a text. -/
def listOfText (text : String) : Except ReadFault (List Value) :=
  (Reading.ofText text).decode listOfOutline

end FilterTree.Value
