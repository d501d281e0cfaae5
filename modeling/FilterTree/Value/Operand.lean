import FilterTree.Value.Basic
import FilterTree.Double.Single

/-!
# Operands

What a caller may put on the right-hand side of a leaf: a ready value, a
boolean, a text, an integer of any width, a floating point number of either
width as its bits, or an optional operand. An operand becomes a value
except when it is a floating point number that is not finite. The absence
of an operand is a value too, the null.
-/

namespace FilterTree

/-- **What may stand on the right-hand side of a leaf.** -/
inductive Operand where
  /-- A ready value, taken as it is. -/
  | value (v : Value)
  /-- A boolean. -/
  | bool (b : Bool)
  /-- A text. -/
  | text (s : String)
  /-- A signed integer of 8 bits. -/
  | int8 (n : Int8)
  /-- A signed integer of 16 bits. -/
  | int16 (n : Int16)
  /-- A signed integer of 32 bits. -/
  | int32 (n : Int32)
  /-- A signed integer of 64 bits. -/
  | int64 (n : Int64)
  /-- An unsigned integer of 8 bits. -/
  | uint8 (n : UInt8)
  /-- An unsigned integer of 16 bits. -/
  | uint16 (n : UInt16)
  /-- An unsigned integer of 32 bits. -/
  | uint32 (n : UInt32)
  /-- An unsigned integer of 64 bits. -/
  | uint64 (n : UInt64)
  /-- A size, of 64 bits. -/
  | size (n : UInt64)
  /-- A double known to be finite. -/
  | finite (x : Double)
  /-- The bits of a double. -/
  | double (bits : UInt64)
  /-- The bits of a single. -/
  | single (bits : UInt32)
  /-- An optional operand that is absent. -/
  | absent
  /-- An optional operand that is present. -/
  | present (operand : Operand)
deriving DecidableEq, Repr

/-- **The value of an operand**, unless it is not a finite number. Integers
are normalized, singles widened. -/
def Operand.toValue? : Operand → Option Value
  | .value v => some v
  | .bool b => some (.bool b)
  | .text s => some (.text s)
  | .int8 n => some (.int n.toInt64)
  | .int16 n => some (.int n.toInt64)
  | .int32 n => some (.int n.toInt64)
  | .int64 n => some (.int n)
  | .uint8 n => some (.int (Int64.ofInt n.toNat))
  | .uint16 n => some (.int (Int64.ofInt n.toNat))
  | .uint32 n => some (.int (Int64.ofInt n.toNat))
  | .uint64 n => some (.ofUInt64 n)
  | .size n => some (.ofUInt64 n)
  | .finite x => some (.float x)
  | .double bits => (Double.ofBits? bits).map .float
  | .single bits => (Double.ofSingleBits? bits).map .float
  | .absent => some .null
  | .present operand => operand.toValue?

end FilterTree
