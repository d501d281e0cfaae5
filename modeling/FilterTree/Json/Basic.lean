import FilterTree.Double.Basic

/-!
# JSON documents

A JSON document as data. Three points distinguish it from the bare grammar.

A **number** is either an integer that fits 64 bits, signed or unsigned, or
a finite double; the two never coincide, so `1` and `1.0` are different
numbers. An **object** is its list of entries in the order they were
written, and a name may occur more than once: what a reader makes of
repeated names is its own business. Where nothing else is said the last of
them counts and the order does not, and `Json.normalize` brings a document
into that form, with each name once and the names ascending.

The **head** of a document is what can be said of it without entering an
array or an object. Decoders that expect a single value look at heads only,
and they describe what they found by its head.
-/

namespace FilterTree

/-- **The least integer** among JSON numbers, `-2 ^ 63`. -/
abbrev Number.least : Int := -0x8000000000000000

/-- **The bound of the integers** among JSON numbers, `2 ^ 64`. -/
abbrev Number.bound : Int := 0x10000000000000000

/-- **A JSON number**: a 64-bit integer or a finite double. -/
inductive Number where
  /-- An integer that fits 64 bits with or without a sign. -/
  | integer (n : Int) (lower : Number.least ≤ n) (upper : n < Number.bound)
  /-- A finite double. -/
  | float (x : Double)
deriving DecidableEq, Repr

/-- The number equal to an integer, if it fits 64 bits. -/
def Number.ofInt? (n : Int) : Option Number :=
  if h : Number.least ≤ n ∧ n < Number.bound then some (.integer n h.1 h.2) else none

/-- **A JSON document.** -/
inductive Json where
  /-- The word `null`. -/
  | null
  /-- The words `true` and `false`. -/
  | bool (b : Bool)
  /-- A number. -/
  | number (n : Number)
  /-- A string. -/
  | text (s : String)
  /-- An array, in order. -/
  | array (items : List Json)
  /-- An object, its entries as written. -/
  | object (entries : List (String × Json))
deriving Repr, Inhabited

/-- **The head of a document**: a single value, or the fact that an array
or an object starts here. -/
inductive Head where
  /-- The word `null`. -/
  | null
  /-- A boolean. -/
  | bool (b : Bool)
  /-- A number. -/
  | number (n : Number)
  /-- A string. -/
  | text (s : String)
  /-- An array of any content. -/
  | array
  /-- An object of any content. -/
  | object
deriving DecidableEq, Repr

namespace Json

/-- The head of a document. -/
def head : Json → Head
  | .null => .null
  | .bool b => .bool b
  | .number n => .number n
  | .text s => .text s
  | .array _ => .array
  | .object _ => .object

/-- Puts an entry that comes before the given ones into their ascending
list, unless a later one has its name. Names are compared by code
points. -/
def insertEarlier (name : String) (value : Json) : List (String × Json) → List (String × Json)
  | [] => [(name, value)]
  | (other, later) :: rest =>
    if name < other then (name, value) :: (other, later) :: rest
    else if name = other then (other, later) :: rest
    else (other, later) :: insertEarlier name value rest

mutual

/-- **The normal form** of a document: in every object each name once, with
its last value, and the names ascending. -/
def normalize : Json → Json
  | .null => .null
  | .bool b => .bool b
  | .number n => .number n
  | .text s => .text s
  | .array items => .array (normalizeItems items)
  | .object entries => .object (normalizeEntries entries)

/-- The normal forms of an array's items. -/
def normalizeItems : List Json → List Json
  | [] => []
  | item :: rest => normalize item :: normalizeItems rest

/-- The entries of an object in normal form. -/
def normalizeEntries : List (String × Json) → List (String × Json)
  | [] => []
  | (name, value) :: rest => insertEarlier name (normalize value) (normalizeEntries rest)

end

@[simp] theorem normalizeItems_eq_map (items : List Json) :
    normalizeItems items = items.map normalize := by
  induction items with
  | nil => rfl
  | cons item rest ih => rw [normalizeItems, ih, List.map_cons]

@[simp] theorem head_normalize (j : Json) : j.normalize.head = j.head := by
  cases j <;> rfl

end Json

end FilterTree
