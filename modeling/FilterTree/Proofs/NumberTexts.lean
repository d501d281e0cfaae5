import FilterTree.Proofs.Literals
import FilterTree.Proofs.ShortestDecimals

/-!
# Texts of numbers

The JSON text of a number is a literal, for every number
(`Number.exists_literal`). For a double it has a point or an exponent in it,
so it is read to a double or to nothing, and never to an integer. What it
spells is a decimal number with few enough digits for a reader's significand
(`Double.written`): the shortest decimal of the double, or for an integer
that is written in full the same number with all its places down to the
first one after the point.

That the text is a literal does not say what the literal is worth, for a
reader rounds more than once. A number is called **legible** if the literal
written for it is worth that number (`Number.Legible`). Every integer is
legible, and a double is when its text on its own reads back.
-/

namespace FilterTree

namespace Numeral

/-- **A numeral that spells a decimal number**, with a mark of a double. -/
structure Spells (n : Numeral) (d : Decimal) : Prop where
  /-- The grammar of literals allows it. -/
  proper : n.IsProper
  /-- It has a point or an exponent. -/
  marked : n.fraction ≠ [] ∨ n.exponent ≠ none
  /-- Its digits are those of the decimal. -/
  significand : n.significand = d.significand
  /-- Its last digit stands at the decimal's exponent. -/
  place : n.place = d.exponent

theorem forall_mem_zeros_lt (k : Nat) : ∀ e ∈ List.replicate k 0, e < 10 := by
  intro e he
  rw [List.eq_of_mem_replicate he]
  decide

theorem spells_zero (negative : Bool) : Spells ⟨negative, [0], [0], none⟩ ⟨0, -1⟩ :=
  ⟨⟨⟨0, [], rfl, fun _ => rfl⟩, forall_mem_zeros_lt 1, forall_mem_zeros_lt 1⟩,
    Or.inl (List.cons_ne_nil _ _), rfl, rfl⟩

section

variable {d s : Nat} {ds : List Nat} (hvalue : ofDigits (d :: ds) = s)
  (hlt : ∀ e ∈ d :: ds, e < 10) (hfirst : d ≠ 0)

include hvalue hlt

/-- **One digit before the point and an exponent.** -/
theorem spells_scientific (negative : Bool) (p : Int) :
    Spells ⟨negative, [d], ds, some p⟩ ⟨s, p - ds.length⟩ :=
  ⟨⟨⟨d, [], rfl, fun _ => rfl⟩, List.forall_mem_singleton.2 (List.forall_mem_cons.1 hlt).1,
    (List.forall_mem_cons.1 hlt).2⟩, Or.inr (Option.some_ne_none p), hvalue, rfl⟩

/-- **Zeros after the point and then digits.** -/
theorem spells_shifted (negative : Bool) (k : Nat) :
    Spells ⟨negative, [0], List.replicate k 0 ++ d :: ds, none⟩
      ⟨s, -((k + (d :: ds).length : Nat) : Int)⟩ := by
  refine ⟨⟨⟨0, [], rfl, fun _ => rfl⟩, forall_mem_zeros_lt 1,
    List.forall_mem_append.2 ⟨forall_mem_zeros_lt k, hlt⟩⟩, Or.inl (by simp), ?_, ?_⟩
  · rw [significand, ← List.append_assoc, List.singleton_append, ← List.replicate_succ,
      ofDigits_append, ofDigits_replicate_zero, Nat.zero_mul, Nat.zero_add, hvalue]
  · simp only [place, Option.getD_none, List.length_append, List.length_replicate]
    omega

include hfirst

/-- **Digits, zeros and a zero after the point.** -/
theorem spells_padded (negative : Bool) (k : Nat) :
    Spells ⟨negative, d :: ds ++ List.replicate k 0, [0], none⟩ ⟨s * 10 ^ (k + 1), -1⟩ := by
  refine ⟨⟨⟨d, ds ++ List.replicate k 0, rfl, fun h => absurd h hfirst⟩,
    List.forall_mem_append.2 ⟨hlt, forall_mem_zeros_lt k⟩, forall_mem_zeros_lt 1⟩,
    Or.inl (List.cons_ne_nil _ _), ?_, rfl⟩
  rw [significand, List.append_assoc, ofDigits_append, hvalue, ← List.replicate_succ',
    ofDigits_replicate_zero, List.length_replicate, Nat.add_zero]

/-- **Digits with the point between them.** -/
theorem spells_divided (negative : Bool) {k : Nat} (hpos : 0 < k)
    (hk : k < (d :: ds).length) :
    Spells ⟨negative, (d :: ds).take k, (d :: ds).drop k, none⟩
      ⟨s, (k : Int) - (d :: ds).length⟩ := by
  obtain ⟨j, rfl⟩ : ∃ j, k = j + 1 := ⟨k - 1, by omega⟩
  refine ⟨⟨⟨d, ds.take j, rfl, fun h => absurd h hfirst⟩,
    fun e he => hlt e (List.mem_of_mem_take he), fun e he => hlt e (List.mem_of_mem_drop he)⟩,
    Or.inl ?_, ?_, ?_⟩
  · rw [Ne, List.drop_eq_nil_iff]
    omega
  · rw [significand, List.take_append_drop, hvalue]
  · simp only [place, Option.getD_none, List.length_drop]
    omega

end

end Numeral

namespace Double

/-- **The decimal that is written** for a double: the shortest one, except
that an integer below `10 ^ 16` is written down to its first place after the
point. -/
def written (x : Double) : Decimal :=
  if x.magnitude = 0 then ⟨0, -1⟩
  else
    let d := shortest .toEven x.magnitude
    if 0 ≤ d.exponent ∧ d.exponent + (digits d.significand).length - 1 < 16 then
      ⟨d.significand * 10 ^ (d.exponent.toNat + 1), -1⟩
    else d

theorem scientific_map_digitChar (d : Nat) (ds : List Nat) (e : Int) :
    scientific ((d :: ds).map digitChar) e
      = [d].map digitChar ++ (Numeral.fractionChars ds ++ Numeral.exponentChars (some e)) := by
  cases ds <;> rfl

/-- Digits with a point are the characters of a numeral, where the point
divides them or stands before them. -/
theorem exists_positional_map_digitChar {d s : Nat} {ds : List Nat}
    (hvalue : ofDigits (d :: ds) = s) (hlt : ∀ e ∈ d :: ds, e < 10) (hfirst : d ≠ 0)
    (negative : Bool) {e : Int} (he : e < 0) :
    ∃ n : Numeral, n.negative = negative ∧ n.Spells ⟨s, e⟩
      ∧ signed negative (positional ((d :: ds).map digitChar) e) = n.chars := by
  unfold positional
  rw [if_neg (Int.not_le.2 he), List.length_map]
  simp only
  split
  · rename_i hbefore
    obtain ⟨k, hk⟩ := Int.eq_ofNat_of_zero_le (Int.le_of_lt hbefore)
    have hspells := Numeral.spells_divided hvalue hlt hfirst negative
      (by omega : 0 < k) (by omega : k < (d :: ds).length)
    have hplace : (k : Int) - (d :: ds).length = e := by omega
    refine ⟨_, rfl, hplace ▸ hspells, ?_⟩
    have hdrop : (d :: ds).drop k ≠ [] := by
      rw [Ne, List.drop_eq_nil_iff]
      omega
    rw [hk, Int.toNat_natCast, Numeral.chars, Numeral.fractionChars_of_ne_nil hdrop,
      Numeral.exponentChars, List.append_nil, List.map_take, List.map_drop]
  · rename_i hbefore
    obtain ⟨k, hk⟩ := Int.eq_ofNat_of_zero_le (by omega : 0 ≤ -((d :: ds).length + e : Int))
    have hspells := Numeral.spells_shifted hvalue hlt negative k
    have hplace : -((k + (d :: ds).length : Nat) : Int) = e := by omega
    refine ⟨_, rfl, hplace ▸ hspells, ?_⟩
    have hdigits : List.replicate k 0 ++ d :: ds ≠ [] := by simp
    rw [hk, Int.toNat_natCast, Numeral.chars, Numeral.fractionChars_of_ne_nil hdigits,
      Numeral.exponentChars, List.append_nil, List.map_append, List.map_replicate]
    rfl

/-- **The text of a double is a literal** that spells the decimal written for
it. -/
theorem exists_literal (x : Double) :
    ∃ n : Numeral, n.negative = x.negative ∧ n.Spells x.written ∧ x.jsonText = n.chars := by
  unfold jsonText written
  by_cases hzero : x.magnitude = 0
  · rw [if_pos hzero, if_pos hzero]
    exact ⟨_, rfl, Numeral.spells_zero x.negative, rfl⟩
  · rw [if_neg hzero, if_neg hzero]
    have hne := significand_shortest_ne_zero .toEven (Nat.pos_of_ne_zero hzero) x.magnitude_lt
    generalize shortest .toEven x.magnitude = decimal at *
    obtain ⟨s, e⟩ := decimal
    obtain ⟨d, ds, hdigits, hvalue, hlt, hfirst⟩ := exists_digits_eq_map s
    have hd : d ≠ 0 := fun h => hne (hfirst h).1
    simp only [hdigits, List.length_map]
    have hlength : (d :: ds).length = ds.length + 1 := List.length_cons
    rw [hlength]
    by_cases hleading : -5 ≤ e + (ds.length + 1 : Nat) - 1 ∧ e + (ds.length + 1 : Nat) - 1 < 16
    · rw [if_pos hleading]
      rcases Int.lt_or_le e 0 with he | he
      · rw [if_neg (by omega), if_neg (by omega), List.append_nil]
        exact exists_positional_map_digitChar hvalue hlt hd x.negative he
      · rw [if_pos ⟨he, hleading.2⟩, if_pos he, positional, if_pos he]
        refine ⟨_, rfl, Numeral.spells_padded hvalue hlt hd x.negative e.toNat, ?_⟩
        rw [Numeral.chars, List.map_append, List.map_replicate]
        rfl
    · rw [if_neg hleading, if_neg (by omega), scientific_map_digitChar]
      have hspells :=
        Numeral.spells_scientific hvalue hlt x.negative (e + (ds.length + 1 : Nat) - 1)
      have hplace : e + (ds.length + 1 : Nat) - 1 - ds.length = e := by omega
      exact ⟨_, rfl, hplace ▸ hspells, rfl⟩

end Double

namespace Number

/-- **The text of a number is a literal.** -/
theorem exists_literal (n : Number) : ∃ m, Numeral.ofChars? (Json.numberText n) = some m := by
  cases n with
  | integer n lower upper =>
    obtain ⟨m, hm, -⟩ := Option.bind_eq_some_iff.1 (Numeral.ofChars?_signedDigits n)
    exact ⟨m, hm⟩
  | float x =>
    obtain ⟨m, -, hm, htext⟩ := x.exists_literal
    exact ⟨m, by rw [Json.numberText, htext, Numeral.ofChars?_chars hm.proper]⟩

/-- **A legible number**: the literal written for it is worth it. -/
def Legible (n : Number) : Prop :=
  (Numeral.ofChars? (Json.numberText n)).bind Numeral.number? = some n

/-- **Every integer is legible.** -/
theorem legible_integer (n : Int) (lower : least ≤ n) (upper : n < bound) :
    (integer n lower upper).Legible := by
  obtain ⟨numeral, hread, hvalue⟩ := Option.bind_eq_some_iff.1 (Numeral.ofChars?_signedDigits n)
  rw [Legible, Json.numberText, hread, Option.bind_some, Numeral.number?, hvalue, Option.bind_some,
    ofInt?, dif_pos ⟨lower, upper⟩]

/-- The document of the text of a number is what the literal is worth. -/
theorem toJson?_ofText_toText (n : Number) :
    (Reading.ofText (Json.number n).toText).toJson?
      = ((Numeral.ofChars? (Json.numberText n)).bind Numeral.number?).map .number := by
  obtain ⟨m, hm⟩ := n.exists_literal
  rw [Reading.ofText, Json.toText, Json.write, String.toList_ofList, List.append_nil,
    Scan.reading_numeral hm, hm]
  rfl

/-- **A number is legible** if its text on its own reads back. -/
theorem legible_of_ofText? {n : Number}
    (h : Json.ofText? (Json.number n).toText = some (.number n)) : n.Legible := by
  rw [Json.ofText?, toJson?_ofText_toText, Option.map_map] at h
  obtain ⟨m, hm, hn⟩ := Option.map_eq_some_iff.1 h
  exact Json.number.inj hn ▸ hm

end Number

end FilterTree
