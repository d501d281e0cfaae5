/-!
# String literals

A string literal is read one character at a time into **pieces**
(`Quoted`). A piece is a character, standing for itself or given by a
letter after a backslash, or a 16-bit **unit** given by four hexadecimal
digits. Where a literal ends can be told without looking at what the units
mean, so a reader that passes over a string asks no more than that.

The text of a literal (`textOf?`) joins a high surrogate and the low
surrogate right after it to the character they encode. A surrogate in any
other place encodes nothing, and the literal has no text.
-/

namespace FilterTree

/-- **A piece of a string literal.** -/
inductive Piece where
  /-- A character. -/
  | char (c : Char)
  /-- A 16-bit unit given by its number. -/
  | unit (u : Nat)
deriving DecidableEq, Repr

/-- **A string literal being read**, after the opening quote. Pieces are
kept with the last one first until the literal is closed. -/
inductive Quoted where
  /-- Between pieces. -/
  | inside (pieces : List Piece)
  /-- After a backslash. -/
  | escape (pieces : List Piece)
  /-- After so many digits of a unit, which make this number. -/
  | hex (pieces : List Piece) (count : Nat) (unit : Nat)
  /-- After the closing quote; the pieces in order. -/
  | closed (pieces : List Piece)
  /-- No literal goes on like this. -/
  | broken
deriving DecidableEq, Repr

namespace Quoted

/-- The character that a letter after a backslash stands for. -/
def escaped? (c : Char) : Option Char :=
  match c with
  | '"' => some '"'
  | '\\' => some '\\'
  | '/' => some '/'
  | 'b' => some '\x08'
  | 'f' => some '\x0c'
  | 'n' => some '\n'
  | 'r' => some '\r'
  | 't' => some '\t'
  | _ => none

/-- The value of a hexadecimal digit in either case. -/
def hexValue? (c : Char) : Option Nat :=
  let n := c.toNat
  if c.isDigit then some (n - '0'.toNat)
  else if 'a'.toNat ≤ n ∧ n ≤ 'f'.toNat then some (n - 'a'.toNat + 10)
  else if 'A'.toNat ≤ n ∧ n ≤ 'F'.toNat then some (n - 'A'.toNat + 10)
  else none

/-- **One more character.** Control characters below the space may not
stand for themselves. -/
def step : Quoted → Char → Quoted
  | .inside pieces, c =>
    if c = '"' then .closed pieces.reverse
    else if c = '\\' then .escape pieces
    else if c.toNat < 0x20 then .broken
    else .inside (.char c :: pieces)
  | .escape pieces, c =>
    if c = 'u' then .hex pieces 0 0
    else match escaped? c with
      | some e => .inside (.char e :: pieces)
      | none => .broken
  | .hex pieces count unit, c =>
    match hexValue? c with
    | some v =>
      if count = 3 then .inside (.unit (16 * unit + v) :: pieces)
      else .hex pieces (count + 1) (16 * unit + v)
    | none => .broken
  | .closed pieces, _ => .closed pieces
  | .broken, _ => .broken

end Quoted

/-- Whether a unit is a high surrogate. -/
def isHighSurrogate (u : Nat) : Bool := 0xD800 ≤ u && u < 0xDC00

/-- Whether a unit is a low surrogate. -/
def isLowSurrogate (u : Nat) : Bool := 0xDC00 ≤ u && u < 0xE000

/-- The character that a high and a low surrogate encode together. -/
def ofSurrogates (high low : Nat) : Char :=
  Char.ofNat (0x10000 + (high - 0xD800) * 0x400 + (low - 0xDC00))

/-- The characters that pieces spell, unless a surrogate stands alone. -/
def charsOf? : List Piece → Option (List Char)
  | [] => some []
  | .char c :: rest => (charsOf? rest).map (c :: ·)
  | .unit u :: rest =>
    if isLowSurrogate u then none
    else if isHighSurrogate u then
      match rest with
      | .unit v :: rest =>
        if isLowSurrogate v then (charsOf? rest).map (ofSurrogates u v :: ·) else none
      | _ => none
    else (charsOf? rest).map (Char.ofNat u :: ·)

/-- **The text of a literal**, unless a surrogate stands alone in it. -/
def textOf? (pieces : List Piece) : Option String :=
  (charsOf? pieces).map String.ofList

end FilterTree
