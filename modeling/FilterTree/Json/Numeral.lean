import FilterTree.Json.Basic
import FilterTree.Double.Rounding
import FilterTree.Text.Digits

/-!
# Number literals

A number literal is read one character at a time (`Numeral.Draft`), and
what it is worth is decided when it is complete (`Numeral.number?`).

A literal without a fraction and an exponent is the integer it spells, if
that fits 64 bits. The one exception is `-0`, which is the negative zero.
Everything else becomes a double, by a rule that is simple and not exact:

* The digits before and after the point are taken as one **significand** of
  at most 64 bits. The first digit that does not fit is dropped with all
  that follow it on its side of the point, and the decimal exponent accounts
  for what was dropped before the point and taken after it.
* The significand is rounded to a double, and so is the power of ten. One
  multiplication or division of doubles, rounded again, gives the result.
* Below `10 ^ -308` the division is done in stages of `10 ^ 308`, each
  rounded; above `10 ^ 308` the result is out of range.

So a literal of up to 15 digits with an exponent of up to 22 is read to the
nearest double, and others may be off by one place or more.
-/

namespace FilterTree

/-- **A number literal**, as written. -/
structure Numeral where
  /-- Whether it starts with a minus sign. -/
  negative : Bool
  /-- The digits before the point. -/
  whole : List Nat
  /-- The digits after the point. -/
  fraction : List Nat
  /-- The exponent, if one is written. -/
  exponent : Option Int
deriving DecidableEq, Repr

namespace Numeral

/-! ## Reading -/

/-- How far a literal has been read. -/
inductive Stage where
  /-- After the minus sign; a digit must follow. -/
  | sign
  /-- After a leading zero; no digit may follow. -/
  | zero
  /-- After a zero that a digit followed: no literal begins like this. -/
  | stray
  /-- Within the digits before the point. -/
  | whole
  /-- After the point; a digit must follow. -/
  | point
  /-- Within the digits after the point. -/
  | fraction
  /-- After the exponent mark; a sign or a digit must follow. -/
  | mark
  /-- After the sign of the exponent; a digit must follow. -/
  | markSign
  /-- Within the digits of the exponent. -/
  | exponent
deriving DecidableEq, Repr

/-- **A literal being read.** -/
structure Draft where
  /-- How far it has been read. -/
  stage : Stage
  /-- Whether it starts with a minus sign. -/
  negative : Bool
  /-- The digits before the point, the last one first. -/
  whole : List Nat := []
  /-- The digits after the point, the last one first. -/
  fraction : List Nat := []
  /-- Whether the exponent has a minus sign. -/
  lowering : Bool := false
  /-- The exponent's digits so far, as a number. -/
  size : Nat := 0
deriving DecidableEq, Repr

namespace Draft

/-- The draft after the first digit of the literal. -/
def firstDigit (negative : Bool) (d : Nat) : Draft :=
  { stage := if d = 0 then .zero else .whole, negative, whole := [d] }

/-- The draft that a character begins, if a literal may begin with it. -/
def start? (c : Char) : Option Draft :=
  if c = '-' then some { stage := .sign, negative := true }
  else (digit? c).map (firstDigit false)

/-- Takes one more digit. -/
def digit (draft : Draft) (d : Nat) : Draft :=
  match draft.stage with
  | .sign => firstDigit draft.negative d
  | .zero | .stray => { draft with stage := .stray }
  | .whole => { draft with whole := d :: draft.whole }
  | .point | .fraction => { draft with stage := .fraction, fraction := d :: draft.fraction }
  | .mark | .markSign | .exponent => { draft with stage := .exponent, size := 10 * draft.size + d }

/-- Takes one more character that is no digit, if the literal may go on
with it. -/
def mark? (draft : Draft) (c : Char) : Option Draft :=
  match draft.stage with
  | .zero | .whole =>
    if c = '.' then some { draft with stage := .point }
    else if c = 'e' ∨ c = 'E' then some { draft with stage := .mark }
    else none
  | .fraction => if c = 'e' ∨ c = 'E' then some { draft with stage := .mark } else none
  | .mark =>
    if c = '-' then some { draft with stage := .markSign, lowering := true }
    else if c = '+' then some { draft with stage := .markSign }
    else none
  | .sign | .stray | .point | .markSign | .exponent => none

/-- **One more character**, or `none` if the literal does not go on with
it. -/
def step? (draft : Draft) (c : Char) : Option Draft :=
  match digit? c with
  | some d => some (draft.digit d)
  | none => draft.mark? c

/-- The literal, if it may end here. -/
def numeral? (draft : Draft) : Option Numeral :=
  let numeral (exponent : Option Int) : Numeral :=
    { negative := draft.negative, whole := draft.whole.reverse
      fraction := draft.fraction.reverse, exponent }
  match draft.stage with
  | .zero | .whole | .fraction => some (numeral none)
  | .exponent => some (numeral (some (if draft.lowering then -draft.size else draft.size)))
  | .sign | .stray | .point | .mark | .markSign => none

end Draft

/-! ## Worth -/

/-- **The integer a literal spells**, if it is written as one and is not
`-0`. -/
def integer? (n : Numeral) : Option Int :=
  if n.fraction.isEmpty && n.exponent.isNone then
    let size : Int := ofDigits n.whole
    if n.negative then if size = 0 then none else some (-size)
    else some size
  else none

/-- **Taking digits** into a significand of 64 bits as long as they fit;
with the significand goes the number of digits dropped. -/
def absorb (significand : Nat) : List Nat → Nat × Nat
  | [] => (significand, 0)
  | d :: ds =>
    if 10 * significand + d < 0x10000000000000000 then absorb (10 * significand + d) ds
    else (significand, (d :: ds).length)

/-- The magnitude of a power of ten. -/
def tenPower (n : Nat) : Nat := Double.nearest (Nat.pow 10 n) 1

/-- Divides a magnitude by `10 ^ 308` a number of times. -/
def lowerByStages : Nat → Nat → Nat
  | 0, magnitude => magnitude
  | stages + 1, magnitude =>
    if magnitude = 0 then 0
    else lowerByStages stages (Double.quotient magnitude (tenPower 308))

/-- **Scaling a magnitude** by a power of ten, in one rounded operation or
in stages. -/
def scale (magnitude : Nat) : Int → Nat
  | .ofNat e =>
    if magnitude = 0 then 0
    else if e ≤ 308 then Double.product magnitude (tenPower e)
    else Double.infinite
  | .negSucc e =>
    let stages := e / 308
    Double.quotient (lowerByStages stages magnitude) (tenPower (e + 1 - 308 * stages))

/-- The double a literal is read to, unless it is out of range. -/
def float? (n : Numeral) : Option Double :=
  let (first, dropped) := absorb 0 n.whole
  let (significand, lost) := absorb first n.fraction
  let taken := n.fraction.length - lost
  let exponent : Int := n.exponent.getD 0 + dropped - taken
  Double.ofMagnitude? n.negative (scale (Double.nearest significand 1) exponent)

/-- **The number a literal is read to**: the integer it spells if that fits
64 bits, else a double unless that is out of range. -/
def number? (n : Numeral) : Option Number :=
  match n.integer?.bind Number.ofInt? with
  | some number => some number
  | none => n.float?.map .float

end Numeral

end FilterTree
