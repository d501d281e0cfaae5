import FilterTree.Json.Basic
import FilterTree.Double.Text

/-!
# JSON text

The compact text of a document: no blanks, entries in their order. In
strings only the quote, the backslash and the control characters below the
space are escaped, five of them by a letter and the others by their number
in hexadecimal. Everything else stands for itself.

All writers put their text in front of what follows. So the text of a whole
is the composition of the texts of its parts, and a statement about what a
reader does with the text of a part can speak of any continuation.
-/

namespace FilterTree

namespace Json

/-- **One character of a string**, escaped where the format asks for it. -/
def writeChar (c : Char) (rest : List Char) : List Char :=
  if c = '"' then '\\' :: '"' :: rest
  else if c = '\\' then '\\' :: '\\' :: rest
  else if c = '\x08' then '\\' :: 'b' :: rest
  else if c = '\t' then '\\' :: 't' :: rest
  else if c = '\n' then '\\' :: 'n' :: rest
  else if c = '\x0c' then '\\' :: 'f' :: rest
  else if c = '\r' then '\\' :: 'r' :: rest
  else if c.toNat < 0x20 then
    '\\' :: 'u' :: '0' :: '0' :: digitChar (c.toNat / 16) :: digitChar (c.toNat % 16) :: rest
  else c :: rest

/-- A string in its quotes. -/
def writeText (s : String) (rest : List Char) : List Char :=
  '"' :: s.toList.foldr writeChar ('"' :: rest)

/-- The text of a number. -/
def numberText : Number → List Char
  | .integer n _ _ => signedDigits n
  | .float x => x.jsonText

mutual

/-- **The text of a document**, in front of what follows. -/
def write : Json → List Char → List Char
  | .null, rest => 'n' :: 'u' :: 'l' :: 'l' :: rest
  | .bool true, rest => 't' :: 'r' :: 'u' :: 'e' :: rest
  | .bool false, rest => 'f' :: 'a' :: 'l' :: 's' :: 'e' :: rest
  | .number n, rest => numberText n ++ rest
  | .text s, rest => writeText s rest
  | .array [], rest => '[' :: ']' :: rest
  | .array (item :: items), rest => '[' :: write item (writeItems items (']' :: rest))
  | .object [], rest => '\x7b' :: '\x7d' :: rest
  | .object ((name, value) :: entries), rest =>
    '\x7b' :: writeText name (':' :: write value (writeEntries entries ('\x7d' :: rest)))

/-- The items of an array after the first. -/
def writeItems : List Json → List Char → List Char
  | [], rest => rest
  | item :: items, rest => ',' :: write item (writeItems items rest)

/-- The entries of an object after the first. -/
def writeEntries : List (String × Json) → List Char → List Char
  | [], rest => rest
  | (name, value) :: entries, rest =>
    ',' :: writeText name (':' :: write value (writeEntries entries rest))

end

/-- The compact text of a document. -/
def toText (j : Json) : String := String.ofList (j.write [])

end Json

end FilterTree
