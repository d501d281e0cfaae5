import FilterTree.Json.Basic
import FilterTree.Text.Quotation
import FilterTree.Double.Text

/-!
# Values

What a leaf compares with: nothing, a boolean, an integer, a finite double
or a text. Integers are held as signed words, and only those too large for
one as unsigned words. A **normal** value keeps to that, so equal integers
are equal values; a value that does not can still be written down directly,
and `Value.normalize` is what becomes of it on the way through JSON.
-/

namespace FilterTree

/-- **A value** that a leaf compares with. -/
inductive Value where
  /-- Nothing. -/
  | null
  /-- A boolean. -/
  | bool (b : Bool)
  /-- A signed integer. -/
  | int (n : Int64)
  /-- An unsigned integer; a normal value holds one only above the signed
  ones. -/
  | uint (n : UInt64)
  /-- A finite double. -/
  | float (x : Double)
  /-- A text. -/
  | text (s : String)
deriving DecidableEq, Repr

namespace Value

/-- **The normal value of an unsigned word**: signed if it fits. -/
def ofUInt64 (n : UInt64) : Value :=
  if n.toNat < 0x8000000000000000 then .int (Int64.ofInt n.toNat) else .uint n

/-- The normal form of a value. -/
def normalize : Value → Value
  | .uint n => ofUInt64 n
  | v => v

/-- **Equality of values**: of one variant and equal, where doubles are
compared as numbers. -/
def same : Value → Value → Bool
  | .float x, .float y => x.same y
  | v, w => v == w

/-- **The JSON document of a value.** Signed and unsigned integers go to
integers. -/
def toJson : Value → Json
  | .null => .null
  | .bool b => .bool b
  | .int n => .number (.integer n.toInt (Int64.le_toInt n)
      (Int.lt_trans (Int64.toInt_lt n) (by decide)))
  | .uint n => .number (.integer n.toNat (Int.le_trans (by decide) (Int.natCast_nonneg _))
      (Int.ofNat_lt.2 n.toNat_lt))
  | .float x => .number (.float x)
  | .text s => .text s

@[simp] theorem normalize_toJson (v : Value) : v.toJson.normalize = v.toJson := by
  cases v <;> rfl

/-- The normal value of a JSON number. -/
def ofNumber : Number → Value
  | .integer n _ _ =>
    if n < 0x8000000000000000 then .int (Int64.ofInt n) else .uint (UInt64.ofNat n.toNat)
  | .float x => .float x

/-- **The text of a value for people**, in front of what follows. -/
def display : Value → List Char → List Char
  | .null, rest => 'n' :: 'u' :: 'l' :: 'l' :: rest
  | .bool true, rest => 't' :: 'r' :: 'u' :: 'e' :: rest
  | .bool false, rest => 'f' :: 'a' :: 'l' :: 's' :: 'e' :: rest
  | .int n, rest => signedDigits n.toInt ++ rest
  | .uint n, rest => digits n.toNat ++ rest
  | .float x, rest => x.displayText ++ rest
  | .text s, rest => quotation s rest

end Value

end FilterTree
