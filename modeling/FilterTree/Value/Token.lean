import FilterTree.Value.Decode
import FilterTree.Double.Single

/-!
# Values from other formats

A value may come from a format that distinguishes more than JSON does:
integers wider than 64 bits, single precision, characters, bytes, optional
values and wrappers. Such a format hands over **tokens**. What has a value
of its own gets it, and the rest is refused like an array or an object.
-/

namespace FilterTree

/-- **A token** of a format richer than JSON. -/
inductive Token where
  /-- An optional value that is absent. -/
  | absent
  /-- The value that carries nothing. -/
  | nothing
  /-- An optional value that is present. -/
  | present (token : Token)
  /-- A boolean. -/
  | bool (b : Bool)
  /-- A signed integer of up to 64 bits. -/
  | signed (n : Int64)
  /-- An unsigned integer of up to 64 bits. -/
  | unsigned (n : UInt64)
  /-- A signed integer of 128 bits. -/
  | wideSigned (n : Int)
  /-- An unsigned integer of 128 bits. -/
  | wideUnsigned (n : Nat)
  /-- The bits of a double. -/
  | double (bits : UInt64)
  /-- The bits of a single. -/
  | single (bits : UInt32)
  /-- A character. -/
  | char (c : Char)
  /-- A text. -/
  | text (s : String)
  /-- Bytes. -/
  | bytes
  /-- A wrapper around another value. -/
  | wrapper
deriving DecidableEq, Repr

/-- A double if it is finite. -/
def Value.ofDouble? : Option Double → Except DecodeFault Value
  | some x => .ok (.float x)
  | none => .error .notFinite

/-- **The value of a token.** -/
def Value.ofToken : Token → Except DecodeFault Value
  | .absent => .ok .null
  | .nothing => .ok .null
  | .present token => ofToken token
  | .bool b => .ok (.bool b)
  | .signed n => .ok (.int n)
  | .unsigned n => .ok (.ofUInt64 n)
  | .wideSigned n => .error (.wrongType (.wideSigned n) .value)
  | .wideUnsigned n => .error (.wrongType (.wideUnsigned n) .value)
  | .double bits => ofDouble? (Double.ofBits? bits)
  | .single bits => ofDouble? (Double.ofSingleBits? bits)
  | .char c => .ok (.text (String.singleton c))
  | .text s => .ok (.text s)
  | .bytes => .error (.wrongType .bytes .value)
  | .wrapper => .error (.wrongType .wrapper .value)

end FilterTree
