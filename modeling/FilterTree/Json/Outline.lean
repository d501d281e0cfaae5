import FilterTree.Json.Numeral
import FilterTree.Json.Quoted

/-!
# Outlines of JSON texts

Any text at all has an **outline**: what it says as JSON, as far as it goes.
An outline is a document whose literals are as written and which may be
**torn** – from some point on the text is not JSON, and then every array and
object around that point is left open. Nothing is refused while an outline
is made. Refusing is left to those who use it, each of whom asks for less
or more:

* `Outline.head?` asks for the head of a value, and looks no further.
* `Outline.isWhole` asks that a value is well formed, and not what it is
  worth. So a reader passes over what it does not need.
* `Outline.toJson?` asks for the document, with every literal worth
  something and at most a given number of arrays and objects open at once.

A decoder that works on an outline and stops at the first thing amiss
reports what a reader of the text from left to right would have come upon
first, since what lies to the right of a tear is not in the outline.
-/

namespace FilterTree

/-- **The outline of a text**: a document as far as the text has one. -/
inductive Outline where
  /-- No value is here. -/
  | torn
  /-- The word `null`. -/
  | null
  /-- The words `true` and `false`. -/
  | bool (b : Bool)
  /-- A number literal. -/
  | numeral (n : Numeral)
  /-- A string literal. -/
  | text (pieces : List Piece)
  /-- An array, and whether it is closed. -/
  | array (items : List Outline) (closed : Bool)
  /-- An object, and whether it is closed. The value of the last entry of
  an open one may be torn away. -/
  | object (entries : List (List Piece × Outline)) (closed : Bool)
deriving Repr, Inhabited

namespace Outline

/-- **The head of a value**, unless it is torn away or its literal is worth
nothing. -/
def head? : Outline → Option Head
  | .torn => none
  | .null => some .null
  | .bool b => some (.bool b)
  | .numeral n => n.number?.map .number
  | .text pieces => (textOf? pieces).map .text
  | .array _ _ => some .array
  | .object _ _ => some .object

mutual

/-- **Well-formedness**, to any depth and whatever the literals are
worth. -/
def isWhole : Outline → Bool
  | .torn => false
  | .null => true
  | .bool _ => true
  | .numeral _ => true
  | .text _ => true
  | .array items closed => areWhole items && closed
  | .object entries closed => entriesAreWhole entries && closed

/-- Whether all items are well formed. -/
def areWhole : List Outline → Bool
  | [] => true
  | item :: rest => item.isWhole && areWhole rest

/-- Whether the values of all entries are well formed. -/
def entriesAreWhole : List (List Piece × Outline) → Bool
  | [] => true
  | (_, value) :: rest => value.isWhole && entriesAreWhole rest

end

mutual

/-- **The document of an outline**, if the outline is whole, every literal
is worth something, and at most `levels` arrays and objects are open at
once. -/
def toJson? : Outline → Nat → Option Json
  | .torn, _ => none
  | .null, _ => some .null
  | .bool b, _ => some (.bool b)
  | .numeral n, _ => n.number?.map .number
  | .text pieces, _ => (textOf? pieces).map .text
  | .array _ _, 0 => none
  | .array items closed, levels + 1 => do
    let items ← itemsToJson? items levels
    if closed then some (.array items) else none
  | .object _ _, 0 => none
  | .object entries closed, levels + 1 => do
    let entries ← entriesToJson? entries levels
    if closed then some (.object entries) else none

/-- The documents of an array's items. -/
def itemsToJson? : List Outline → Nat → Option (List Json)
  | [], _ => some []
  | item :: rest, levels => do
    let item ← item.toJson? levels
    let rest ← itemsToJson? rest levels
    some (item :: rest)

/-- The documents of an object's entries. -/
def entriesToJson? : List (List Piece × Outline) → Nat → Option (List (String × Json))
  | [], _ => some []
  | (name, value) :: rest, levels => do
    let name ← textOf? name
    let value ← value.toJson? levels
    let rest ← entriesToJson? rest levels
    some ((name, value) :: rest)

end

end Outline

end FilterTree
