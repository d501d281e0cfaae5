/-!
# Digits

The spelling of natural numbers and integers without leading zeros, and
the value of a digit. The base is a parameter, since texts use two: ten for
numbers, sixteen for the numbers of characters.
-/

namespace FilterTree

/-- The character of a digit; those from ten on are lower-case letters. -/
def digitChar (d : Nat) : Char :=
  if d < 10 then Char.ofNat ('0'.toNat + d) else Char.ofNat ('a'.toNat + (d - 10))

/-- **The spelling** of a natural number in a base, most significant digit
first. -/
def spelling (base n : Nat) : List Char :=
  if h : base ≤ n ∧ 1 < base then
    have : n / base < n := Nat.div_lt_self (by omega) h.2
    spelling base (n / base) ++ [digitChar (n % base)]
  else [digitChar n]

/-- The decimal spelling of a natural number. -/
def digits (n : Nat) : List Char := spelling 10 n

theorem digits_of_lt {n : Nat} (h : n < 10) : digits n = [digitChar n] := by
  unfold digits spelling
  rw [dif_neg (by omega)]

/-- From ten on the last digit is the remainder and the others spell the
quotient. -/
theorem digits_of_le {n : Nat} (h : 10 ≤ n) :
    digits n = digits (n / 10) ++ [digitChar (n % 10)] := by
  unfold digits
  rw [spelling, dif_pos ⟨h, by decide⟩]

/-- The decimal spelling of an integer, with a minus sign below zero. -/
def signedDigits : Int → List Char
  | .ofNat n => digits n
  | .negSucc n => '-' :: digits (n + 1)

/-- The decimal digit a character stands for, if it is one of the ten. -/
def digit? (c : Char) : Option Nat :=
  if c.isDigit then some (c.toNat - '0'.toNat) else none

/-- The number a list of decimal digits spells, most significant digit
first. -/
def ofDigits (ds : List Nat) : Nat :=
  ds.foldl (fun n d => 10 * n + d) 0

@[simp] theorem digit?_digitChar {d : Nat} (h : d < 10) : digit? (digitChar d) = some d := by
  have all : ∀ n : Fin 10, digit? (digitChar n.val) = some n.val := by decide
  exact all ⟨d, h⟩

@[simp] theorem ofDigits_append_singleton (ds : List Nat) (d : Nat) :
    ofDigits (ds ++ [d]) = 10 * ofDigits ds + d := by
  rw [ofDigits, List.foldl_append]
  rfl

@[simp] theorem ofDigits_replicate_zero (n : Nat) : ofDigits (List.replicate n 0) = 0 := by
  induction n with
  | zero => rfl
  | succ n ih => rw [List.replicate_succ', ofDigits_append_singleton, ih]

end FilterTree
