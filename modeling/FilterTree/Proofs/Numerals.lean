import FilterTree.Json.Numeral
import FilterTree.Double.Text
import Mathlib.Tactic.Ring
import Mathlib.Data.List.Induction

/-!
# Written numerals

A numeral can be written out (`Numeral.chars`), and if it is **proper** then
reading gives exactly this numeral again (`Numeral.ofChars?_chars`). Proper
is what the grammar of literals asks for: decimal digits, one of them before
the point at least, and no zero in front of others there. The spelling of an
integer is such a text (`Numeral.ofChars?_signedDigits`).

The last part is about worth. If all digits of a numeral fit the 64 bits of
a significand, then none is dropped, and the numeral is read to the number
its digits spell, rounded and scaled once (`Numeral.float?_eq`).
-/

namespace FilterTree

/-! ## Digits -/

/-- Digits spell a number before others if it is multiplied by a power of ten
for each of these. -/
theorem foldl_digits (ds : List Nat) (start : Nat) :
    ds.foldl (fun n d => 10 * n + d) start = start * 10 ^ ds.length + ofDigits ds := by
  induction ds using List.reverseRecOn with
  | nil => simp [ofDigits]
  | append_singleton ds d ih =>
    rw [List.foldl_append, ih, ofDigits_append_singleton, List.length_append, List.length_singleton,
      pow_succ]
    simp only [List.foldl_cons, List.foldl_nil]
    ring

/-- **Digits after digits** move these to the left. -/
theorem ofDigits_append (ds es : List Nat) :
    ofDigits (ds ++ es) = ofDigits ds * 10 ^ es.length + ofDigits es := by
  rw [ofDigits, List.foldl_append, foldl_digits]
  rfl

/-- **The spelling of a number** consists of digits that spell it. The first
of them is a zero only if the number is zero, and then it is the only one. -/
theorem exists_digits_eq_map (n : Nat) :
    ∃ d ds, digits n = (d :: ds).map digitChar ∧ ofDigits (d :: ds) = n
      ∧ (∀ e ∈ d :: ds, e < 10) ∧ (d = 0 → n = 0 ∧ ds = []) := by
  induction n using Nat.strongRecOn with
  | ind n ih =>
    by_cases hn : n < 10
    · exact ⟨n, [], digits_of_lt hn, by simp [ofDigits], List.forall_mem_singleton.2 hn,
        fun h => ⟨h, rfl⟩⟩
    · -- the last digit comes after those of the quotient, which is not zero
      obtain ⟨d, ds, hdigits, hvalue, hlt, hfirst⟩ := ih (n / 10) (by omega)
      have hlast : n % 10 < 10 := Nat.mod_lt n (by decide)
      refine ⟨d, ds ++ [n % 10], ?_, ?_, ?_, fun h => absurd (hfirst h).1 (by omega)⟩
      · rw [digits_of_le (by omega), hdigits, ← List.cons_append, List.map_append,
          List.map_singleton]
      · rw [← List.cons_append, ofDigits_append_singleton, hvalue, Nat.div_add_mod]
      · rw [← List.cons_append, List.forall_mem_append]
        exact ⟨hlt, List.forall_mem_singleton.2 hlast⟩

theorem lt_ten_pow_length_digits (n : Nat) : n < 10 ^ (digits n).length := by
  induction n using Nat.strongRecOn with
  | ind n ih =>
    by_cases hn : n < 10
    · rw [digits_of_lt hn]
      exact hn
    · have hquotient := ih (n / 10) (by omega)
      rw [digits_of_le (by omega), List.length_append, List.length_singleton, pow_succ]
      omega

namespace Numeral

/-! ## Writing -/

/-- A point and the digits after it, if there are any. -/
def fractionChars : List Nat → List Char
  | [] => []
  | d :: ds => '.' :: (d :: ds).map digitChar

theorem fractionChars_of_ne_nil {ds : List Nat} (h : ds ≠ []) :
    fractionChars ds = '.' :: ds.map digitChar := by
  cases ds with
  | nil => exact absurd rfl h
  | cons d ds => rfl

/-- An exponent, always with its sign. -/
def exponentChars : Option Int → List Char
  | none => []
  | some e => 'e' :: (if e < 0 then '-' else '+') :: digits e.natAbs

/-- **A numeral written out.** -/
def chars (n : Numeral) : List Char :=
  Double.signed n.negative
    (n.whole.map digitChar ++ (fractionChars n.fraction ++ exponentChars n.exponent))

/-- **A proper numeral**, which the grammar of literals allows. -/
structure IsProper (n : Numeral) : Prop where
  /-- There are digits before the point, and a zero comes first only if it
  is the only one. -/
  whole : ∃ d ds, n.whole = d :: ds ∧ (d = 0 → ds = [])
  /-- The digits before the point are decimal. -/
  whole_lt : ∀ d ∈ n.whole, d < 10
  /-- The digits after the point are decimal. -/
  fraction_lt : ∀ d ∈ n.fraction, d < 10

/-! ## Reading back -/

namespace Draft

/-- **More characters**, unless the literal does not go on with one of
them. -/
def run? (draft : Draft) (cs : List Char) : Option Draft := cs.foldlM step? draft

@[simp] theorem run?_cons (draft : Draft) (c : Char) (cs : List Char) :
    draft.run? (c :: cs) = (draft.step? c).bind fun after => after.run? cs :=
  List.foldlM_cons

@[simp] theorem run?_append (draft : Draft) (cs ds : List Char) :
    draft.run? (cs ++ ds) = (draft.run? cs).bind fun after => after.run? ds :=
  List.foldlM_append

/-- **The draft of a text** that starts like a literal and goes on like
it. -/
def ofChars? : List Char → Option Draft
  | [] => none
  | c :: cs => (start? c).bind fun draft => draft.run? cs

theorem run?_map_digitChar (draft : Draft) {ds : List Nat} (h : ∀ d ∈ ds, d < 10) :
    draft.run? (ds.map digitChar) = some (ds.foldl digit draft) := by
  induction ds generalizing draft with
  | nil => rfl
  | cons d ds ih =>
    obtain ⟨hd, hds⟩ := List.forall_mem_cons.1 h
    rw [List.map_cons, run?_cons, step?, digit?_digitChar hd]
    exact ih _ hds

/-- Digits before the point are kept in reverse order. -/
theorem foldl_digit_whole (ds : List Nat) (negative : Bool) (whole : List Nat) :
    ds.foldl digit { stage := .whole, negative, whole }
      = { stage := .whole, negative, whole := ds.reverse ++ whole } := by
  induction ds generalizing whole with
  | nil => rfl
  | cons d ds ih =>
    rw [List.foldl_cons]
    exact (ih (d :: whole)).trans (by simp)

/-- Digits after the point are kept in reverse order. -/
theorem foldl_digit_fraction (ds : List Nat) (negative : Bool) (whole fraction : List Nat) :
    ds.foldl digit { stage := .fraction, negative, whole, fraction }
      = { stage := .fraction, negative, whole, fraction := ds.reverse ++ fraction } := by
  induction ds generalizing fraction with
  | nil => rfl
  | cons d ds ih =>
    rw [List.foldl_cons]
    exact (ih (d :: fraction)).trans (by simp)

/-- The digits of an exponent make a number. -/
theorem foldl_digit_exponent (ds : List Nat) (negative : Bool) (whole fraction : List Nat)
    (lowering : Bool) (size : Nat) :
    ds.foldl digit { stage := .exponent, negative, whole, fraction, lowering, size }
      = { stage := .exponent, negative, whole, fraction, lowering,
          size := ds.foldl (fun n d => 10 * n + d) size } := by
  induction ds generalizing size with
  | nil => rfl
  | cons d ds ih =>
    rw [List.foldl_cons]
    exact ih (10 * size + d)

/-- The first digit comes after the sign or at the start. -/
theorem ofChars?_signed {d : Nat} (hd : d < 10) (negative : Bool) (cs : List Char) :
    ofChars? (Double.signed negative (digitChar d :: cs)) = (firstDigit negative d).run? cs := by
  cases negative with
  | false =>
    have hsign : digitChar d ≠ '-' := by
      intro h
      have hdigit : digit? '-' = some d := h ▸ digit?_digitChar hd
      cases hdigit
    show (start? (digitChar d)).bind _ = _
    rw [start?, if_neg hsign, digit?_digitChar hd]
    rfl
  | true =>
    show ({ stage := .sign, negative := true } : Draft).run? (digitChar d :: cs) = _
    rw [run?_cons, step?, digit?_digitChar hd]
    rfl

/-- **The digits before the point** are read, and after them a point or an
exponent may come, or the end. -/
theorem ofChars?_whole {n : Numeral} (h : n.IsProper) (cs : List Char) :
    ∃ stage, (stage = .zero ∨ stage = .whole)
      ∧ ofChars? (Double.signed n.negative (n.whole.map digitChar ++ cs))
        = ({ stage, negative := n.negative, whole := n.whole.reverse } : Draft).run? cs := by
  obtain ⟨d, ds, hwhole, hzero⟩ := h.whole
  have hlt := h.whole_lt
  rw [hwhole] at hlt ⊢
  obtain ⟨hd, hds⟩ := List.forall_mem_cons.1 hlt
  rw [List.map_cons, List.cons_append, ofChars?_signed hd, run?_append, run?_map_digitChar _ hds,
    Option.bind_some, firstDigit]
  by_cases hd0 : d = 0
  · rw [hzero hd0, if_pos hd0]
    exact ⟨.zero, Or.inl rfl, rfl⟩
  · rw [if_neg hd0, foldl_digit_whole, List.reverse_cons]
    exact ⟨.whole, Or.inr rfl, rfl⟩

/-- **The digits after the point** are read, and after them an exponent may
come, or the end. -/
theorem run?_fractionChars {stage : Stage} (hstage : stage = .zero ∨ stage = .whole)
    (negative : Bool) (whole : List Nat) {ds : List Nat} (hds : ∀ d ∈ ds, d < 10)
    (cs : List Char) :
    ∃ after, (after = .zero ∨ after = .whole ∨ after = .fraction)
      ∧ ({ stage, negative, whole } : Draft).run? (fractionChars ds ++ cs)
        = ({ stage := after, negative, whole, fraction := ds.reverse } : Draft).run? cs := by
  cases ds with
  | nil => exact ⟨stage, by tauto, rfl⟩
  | cons d ds =>
    refine ⟨.fraction, Or.inr (Or.inr rfl), ?_⟩
    have hpoint : ({ stage, negative, whole } : Draft).step? '.'
        = some { stage := .point, negative, whole } := by
      rcases hstage with rfl | rfl <;> rfl
    rw [fractionChars, List.cons_append, run?_cons, hpoint, Option.bind_some, run?_append,
      run?_map_digitChar _ hds, Option.bind_some, List.foldl_cons]
    exact congrArg (fun draft : Draft => draft.run? cs)
      ((foldl_digit_fraction ds negative whole [d]).trans (by simp))

/-- **The exponent** is read, and the literal may end. -/
theorem run?_exponentChars {stage : Stage}
    (hstage : stage = .zero ∨ stage = .whole ∨ stage = .fraction) (negative : Bool)
    (whole fraction : List Nat) (exponent : Option Int) :
    (({ stage, negative, whole, fraction } : Draft).run? (exponentChars exponent)).bind numeral?
      = some ⟨negative, whole.reverse, fraction.reverse, exponent⟩ := by
  cases exponent with
  | none => rcases hstage with rfl | rfl | rfl <;> rfl
  | some e =>
    have hmark : ({ stage, negative, whole, fraction } : Draft).step? 'e'
        = some { stage := .mark, negative, whole, fraction } := by
      rcases hstage with rfl | rfl | rfl <;> rfl
    have hsign : ({ stage := .mark, negative, whole, fraction } : Draft).step?
          (if e < 0 then '-' else '+')
        = some { stage := .markSign, negative, whole, fraction, lowering := decide (e < 0) } := by
      by_cases he : e < 0
      · rw [if_pos he, decide_eq_true he]
        rfl
      · rw [if_neg he, decide_eq_false he]
        rfl
    obtain ⟨d, ds, hdigits, hvalue, hlt, -⟩ := exists_digits_eq_map e.natAbs
    have hread : ((d :: ds).foldl digit
          { stage := .markSign, negative, whole, fraction, lowering := decide (e < 0) })
        = { stage := .exponent, negative, whole, fraction, lowering := decide (e < 0),
            size := e.natAbs } := by
      rw [← hvalue, List.foldl_cons]
      exact foldl_digit_exponent ds negative whole fraction _ (10 * 0 + d)
    rw [exponentChars, run?_cons, hmark, Option.bind_some, run?_cons, hsign, Option.bind_some,
      hdigits, run?_map_digitChar _ hlt, hread, Option.bind_some]
    have hsize : (if decide (e < 0) then -(e.natAbs : Int) else e.natAbs) = e := by
      simp only [decide_eq_true_eq]
      split <;> omega
    simp only [numeral?, hsize]

end Draft

/-- **The literal that a text is**, if it is one. -/
def ofChars? (cs : List Char) : Option Numeral := (Draft.ofChars? cs).bind Draft.numeral?

/-- **A proper numeral that is written out** is read back as it is. -/
theorem ofChars?_chars {n : Numeral} (h : n.IsProper) : ofChars? n.chars = some n := by
  obtain ⟨stage, hstage, hwhole⟩ :=
    Draft.ofChars?_whole h (fractionChars n.fraction ++ exponentChars n.exponent)
  obtain ⟨after, hafter, hfraction⟩ := Draft.run?_fractionChars hstage n.negative n.whole.reverse
    h.fraction_lt (exponentChars n.exponent)
  rw [ofChars?, chars, hwhole, hfraction, Draft.run?_exponentChars hafter, List.reverse_reverse,
    List.reverse_reverse]

/-- The spelling of a number, after a sign or not, is a literal of digits that
make this number. -/
theorem exists_ofChars?_signed_digits (negative : Bool) (n : Nat) :
    ∃ whole, ofChars? (Double.signed negative (digits n)) = some ⟨negative, whole, [], none⟩
      ∧ ofDigits whole = n := by
  obtain ⟨d, ds, hdigits, hvalue, hlt, hfirst⟩ := exists_digits_eq_map n
  have hproper : IsProper ⟨negative, d :: ds, [], none⟩ :=
    ⟨⟨d, ds, rfl, fun h => (hfirst h).2⟩, hlt, List.forall_mem_nil _⟩
  have hread := ofChars?_chars hproper
  rw [chars, fractionChars, exponentChars, List.append_nil, List.append_nil, ← hdigits] at hread
  exact ⟨d :: ds, hread, hvalue⟩

/-- **The spelling of an integer** is a literal of that integer. -/
theorem ofChars?_signedDigits (n : Int) :
    (ofChars? (signedDigits n)).bind integer? = some n := by
  cases n with
  | ofNat n =>
    obtain ⟨whole, hread, hvalue⟩ := exists_ofChars?_signed_digits false n
    have htext : signedDigits (.ofNat n) = Double.signed false (digits n) := rfl
    rw [htext, hread]
    simp [integer?, hvalue]
  | negSucc n =>
    obtain ⟨whole, hread, hvalue⟩ := exists_ofChars?_signed_digits true (n + 1)
    have htext : signedDigits (.negSucc n) = Double.signed true (digits (n + 1)) := rfl
    have hne : ((n + 1 : Nat) : Int) ≠ 0 := by omega
    rw [htext, hread, Option.bind_some]
    simp only [integer?, hvalue, List.isEmpty_nil, Option.isNone_none, Bool.and_self, if_true,
      if_neg hne]
    rfl

/-! ## Worth -/

/-- **The number that all digits spell**, as if there were no point. -/
def significand (n : Numeral) : Nat := ofDigits (n.whole ++ n.fraction)

/-- **The place of the last digit**, as a power of ten. -/
def place (n : Numeral) : Int := n.exponent.getD 0 - n.fraction.length

/-- All digits are taken if what they spell fits. -/
theorem absorb_of_lt {ds : List Nat} {start : Nat}
    (h : ds.foldl (fun n d => 10 * n + d) start < 0x10000000000000000) :
    absorb start ds = (ds.foldl (fun n d => 10 * n + d) start, 0) := by
  induction ds generalizing start with
  | nil => rfl
  | cons d ds ih =>
    rw [List.foldl_cons] at h ⊢
    -- taking more digits does not make the number smaller
    have hle : 10 * start + d ≤ ds.foldl (fun n d => 10 * n + d) (10 * start + d) := by
      rw [foldl_digits]
      exact Nat.le_add_right_of_le (Nat.le_mul_of_pos_right _ (Nat.pow_pos (by decide)))
    rw [absorb, if_pos (Nat.lt_of_le_of_lt hle h), ih h]

/-- **The double a numeral is read to** if no digit is dropped: its
significand rounded, and then scaled to its place. -/
theorem float?_eq {n : Numeral} (h : n.significand < 0x10000000000000000) :
    n.float?
      = Double.ofMagnitude? n.negative (scale (Double.nearest n.significand 1) n.place) := by
  have hall : n.fraction.foldl (fun n d => 10 * n + d) (ofDigits n.whole) = n.significand := by
    rw [significand, ofDigits, ofDigits, List.foldl_append]
  have hfirst : ofDigits n.whole < 0x10000000000000000 := by
    refine Nat.lt_of_le_of_lt ?_ h
    rw [significand, ofDigits_append]
    exact Nat.le_add_right_of_le (Nat.le_mul_of_pos_right _ (Nat.pow_pos (by decide)))
  have hwhole : absorb 0 n.whole = (ofDigits n.whole, 0) := absorb_of_lt hfirst
  have hfraction : absorb (ofDigits n.whole) n.fraction = (n.significand, 0) := by
    rw [absorb_of_lt (hall ▸ h), hall]
  simp only [float?, hwhole, hfraction, place, Int.natCast_zero, Int.add_zero, Nat.sub_zero]

theorem integer?_of_ne {n : Numeral} (h : n.fraction ≠ [] ∨ n.exponent ≠ none) :
    n.integer? = none := by
  rw [integer?, if_neg]
  rw [Bool.and_eq_true, List.isEmpty_iff, Option.isNone_iff_eq_none]
  tauto

theorem number?_of_ne {n : Numeral} (h : n.fraction ≠ [] ∨ n.exponent ≠ none) :
    n.number? = n.float?.map .float := by
  rw [number?, integer?_of_ne h]
  rfl

end Numeral

end FilterTree
