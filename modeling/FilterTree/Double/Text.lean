import FilterTree.Double.Shortest
import FilterTree.Text.Digits

/-!
# Doubles as text

Two texts are made of a double, both from its shortest decimal. **JSON
text** has a point or an exponent in it, so that it reads back as a double
and not as an integer; it turns to an exponent for the very small and the
very large. **Display text** is for people: never an exponent, and no
fraction if the number has none.
-/

namespace FilterTree.Double

/-- Digits with a decimal point, `exponent` places after which the last of
them stands. A point is set only if some digit comes after it. -/
def positional (ds : List Char) (exponent : Int) : List Char :=
  if 0 ≤ exponent then ds ++ List.replicate exponent.toNat '0'
  else
    let before : Int := ds.length + exponent
    if 0 < before then ds.take before.toNat ++ '.' :: ds.drop before.toNat
    else '0' :: '.' :: List.replicate (-before).toNat '0' ++ ds

/-- Digits with the point after the first and an exponent that is always
signed. -/
def scientific (ds : List Char) (exponent : Int) : List Char :=
  let mantissa := match ds with
    | first :: second :: rest => first :: '.' :: second :: rest
    | few => few
  mantissa ++ 'e' :: (if exponent < 0 then '-' else '+') :: digits exponent.natAbs

/-- A sign before the text of an absolute value. -/
def signed (negative : Bool) (cs : List Char) : List Char :=
  if negative then '-' :: cs else cs

/-- **JSON text**: positional with at least one digit after the point when
the leading digit stands for `10 ^ -5` up to `10 ^ 15`, with an exponent
otherwise. A decimal halfway between two candidates takes the even one. -/
def jsonText (x : Double) : List Char :=
  signed x.negative <|
    if x.magnitude = 0 then ['0', '.', '0']
    else
      let decimal := shortest .toEven x.magnitude
      let ds := digits decimal.significand
      let leading : Int := decimal.exponent + ds.length - 1
      if -5 ≤ leading ∧ leading < 16 then
        positional ds decimal.exponent ++ if 0 ≤ decimal.exponent then ['.', '0'] else []
      else scientific ds leading

/-- **Display text**: positional whatever the size, and without a point for
an integer. A decimal halfway between two candidates takes the upper
one. -/
def displayText (x : Double) : List Char :=
  signed x.negative <|
    if x.magnitude = 0 then ['0']
    else
      let decimal := shortest .up x.magnitude
      positional (digits decimal.significand) decimal.exponent

end FilterTree.Double
