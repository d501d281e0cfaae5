import FilterTree.Proofs.CanonicalForm
import FilterTree.Proofs.RepeatedNames

/-!
# Equality of trees and of documents

Trees are equal when they have the same nodes with equal keys and values in
the same places, and documents are equal when each name of an object has
equal values in both. Doubles are compared as numbers either way. The only
numbers that two doubles share are the zeros, and so equality is identity up
to the signs of zeros: two trees are equal when they are one tree once every
zero has lost its sign (`Predicate.same_iff`), and the same goes for
documents (`Json.sameForm_iff`).

Taking the signs off does not interfere with anything else that is done to a
tree. It commutes with normalizing and with the canonical form, and canonical
forms are one document exactly when normal forms are one tree. Therefore the
documents of two trees are equal exactly when their normal forms are
(`Predicate.same_canonical_iff`). Nothing is asked of the trees, so this goes
beyond what the round trip says: a leaf that no decoder accepts is told from
every other leaf as well.
-/

namespace FilterTree

/-- A test that compares members by what a function makes of them compares
lists so. -/
theorem isEqv_iff_map_eq {α β : Type} {test : α → α → Bool} {f : α → β} {as bs : List α}
    (h : ∀ a ∈ as, ∀ b, test a b = true ↔ f a = f b) :
    as.isEqv bs test = true ↔ as.map f = bs.map f := by
  induction as generalizing bs with
  | nil => cases bs <;> simp [List.isEqv]
  | cons a as ih =>
    obtain ⟨ha, has⟩ := List.forall_mem_cons.1 h
    cases bs with
    | nil => simp [List.isEqv]
    | cons b bs => simp [List.isEqv, ha b, ih has]

theorem map_map_congr {α β γ δ : Type} {f : α → β} {g : β → δ} {h : α → γ} {k : γ → δ}
    {as : List α} (hcongr : ∀ a ∈ as, g (f a) = k (h a)) :
    (as.map f).map g = (as.map h).map k := by
  rw [List.map_map, List.map_map]
  exact List.map_congr_left hcongr

/-! ## Numbers -/

/-- The double without the sign of a zero. -/
def Double.unsignZero (x : Double) : Double := if x.magnitude = 0 then zero else x

/-- **Two doubles are the same number** when they are one double but for the
sign of a zero. -/
theorem Double.same_iff {x y : Double} : x.same y = true ↔ x.unsignZero = y.unsignZero := by
  simp only [same, unsignZero, Bool.or_eq_true, Bool.and_eq_true, beq_iff_eq]
  by_cases hx : x.magnitude = 0
  · by_cases hy : y.magnitude = 0
    · simp [hx, hy]
    · rw [if_pos hx, if_neg hy]
      refine iff_of_false ?_ fun h => hy (h ▸ rfl)
      rintro (rfl | ⟨-, h⟩)
      · exact hy hx
      · exact hy h
  · rw [if_neg hx]
    by_cases hy : y.magnitude = 0
    · rw [if_pos hy]
      refine iff_of_false ?_ fun h => hx (h ▸ rfl)
      rintro (rfl | ⟨h, -⟩)
      · exact hx hy
      · exact hx h
    · rw [if_neg hy]
      simp [hx]

/-- The number without the sign of a zero. -/
def Number.unsignZero : Number → Number
  | .integer n lower upper => .integer n lower upper
  | .float x => .float x.unsignZero

/-- **Equality of JSON numbers**: equal integers, or doubles that are the same
number. An integer is never equal to a double. -/
def Number.same : Number → Number → Bool
  | .integer n _ _, .integer m _ _ => n == m
  | .float x, .float y => x.same y
  | _, _ => false

/-- JSON numbers are equal when they are one number but for the sign of a
zero. -/
theorem Number.same_iff {n m : Number} : n.same m = true ↔ n.unsignZero = m.unsignZero := by
  cases n with
  | integer n lower upper =>
    cases m with
    | integer m lower' upper' => simp [same, unsignZero]
    | float y => simp [same, unsignZero]
  | float x =>
    cases m with
    | integer m lower upper => simp [same, unsignZero]
    | float y => simp [same, unsignZero, Double.same_iff]

/-! ## Documents -/

namespace Json

mutual

/-- Equality of documents as they are written, their entries one by one. -/
def sameForm : Json → Json → Bool
  | .null, .null => true
  | .bool b, .bool b' => b == b'
  | .number n, .number n' => n.same n'
  | .text s, .text s' => s == s'
  | .array items, .array items' => sameItems items items'
  | .object entries, .object entries' => sameEntries entries entries'
  | _, _ => false

/-- Equality of items, one by one. -/
def sameItems : List Json → List Json → Bool
  | [], [] => true
  | j :: items, j' :: items' => sameForm j j' && sameItems items items'
  | _, _ => false

/-- Equality of entries, one by one. -/
def sameEntries : List (String × Json) → List (String × Json) → Bool
  | [], [] => true
  | (name, j) :: entries, (name', j') :: entries' =>
    (name == name' && sameForm j j') && sameEntries entries entries'
  | _, _ => false

end

/-- **Equality of documents**: that of their normal forms. So in an object the
last value of each name counts and the order does not. -/
def same (j k : Json) : Bool := sameForm j.normalize k.normalize

mutual

/-- The document without the signs of zeros. -/
def unsignZeros : Json → Json
  | .null => .null
  | .bool b => .bool b
  | .number n => .number n.unsignZero
  | .text s => .text s
  | .array items => .array (unsignZerosItems items)
  | .object entries => .object (unsignZerosEntries entries)

/-- The items without the signs of zeros. -/
def unsignZerosItems : List Json → List Json
  | [] => []
  | j :: items => unsignZeros j :: unsignZerosItems items

/-- The entries without the signs of zeros. -/
def unsignZerosEntries : List (String × Json) → List (String × Json)
  | [] => []
  | (name, j) :: entries => (name, unsignZeros j) :: unsignZerosEntries entries

end

@[simp] theorem sameItems_eq_isEqv (items items' : List Json) :
    sameItems items items' = items.isEqv items' sameForm := by
  induction items generalizing items' with
  | nil => cases items' <;> rfl
  | cons j items ih =>
    cases items' with
    | nil => rfl
    | cons j' items' => rw [sameItems, List.isEqv, ih]

@[simp] theorem sameEntries_eq_isEqv (entries entries' : List (String × Json)) :
    sameEntries entries entries'
      = entries.isEqv entries' fun e e' => e.1 == e'.1 && sameForm e.2 e'.2 := by
  induction entries generalizing entries' with
  | nil => cases entries' <;> rfl
  | cons e entries ih =>
    cases entries' with
    | nil => rfl
    | cons e' entries' => rw [sameEntries, List.isEqv, ih]

@[simp] theorem unsignZerosItems_eq_map (items : List Json) :
    unsignZerosItems items = items.map unsignZeros := by
  induction items with
  | nil => rfl
  | cons j items ih => rw [unsignZerosItems, ih, List.map_cons]

@[simp] theorem unsignZerosEntries_eq_map (entries : List (String × Json)) :
    unsignZerosEntries entries = entries.map fun e => (e.1, e.2.unsignZeros) := by
  induction entries with
  | nil => rfl
  | cons e entries ih => rw [unsignZerosEntries, ih, List.map_cons]

/-- **Documents are equal as they are written** when they are one document but
for the signs of zeros. -/
theorem sameForm_iff {j k : Json} : j.sameForm k = true ↔ j.unsignZeros = k.unsignZeros := by
  induction j generalizing k with
  | null => cases k <;> simp [sameForm, unsignZeros]
  | bool b => cases k <;> simp [sameForm, unsignZeros]
  | number n => cases k <;> simp [sameForm, unsignZeros, Number.same_iff]
  | text s => cases k <;> simp [sameForm, unsignZeros]
  | array items ih =>
    cases k with
    | array items' =>
      rw [sameForm, unsignZeros, unsignZeros, array.injEq, sameItems_eq_isEqv,
        unsignZerosItems_eq_map, unsignZerosItems_eq_map]
      exact isEqv_iff_map_eq fun j hj _ => ih j hj
    | _ => simp [sameForm, unsignZeros]
  | object entries ih =>
    cases k with
    | object entries' =>
      rw [sameForm, unsignZeros, unsignZeros, object.injEq, sameEntries_eq_isEqv,
        unsignZerosEntries_eq_map, unsignZerosEntries_eq_map]
      refine isEqv_iff_map_eq fun e he e' => ?_
      rw [Bool.and_eq_true, beq_iff_eq, ih e he, Prod.mk.injEq]
    | _ => simp [sameForm, unsignZeros]

end Json

/-! ## Trees -/

/-- The value without the sign of a zero. -/
def Value.unsignZero : Value → Value
  | .float x => .float x.unsignZero
  | v => v

/-- Values are equal when they are one value but for the sign of a zero. -/
theorem Value.same_iff {v w : Value} : v.same w = true ↔ v.unsignZero = w.unsignZero := by
  cases v with
  | float x =>
    cases w with
    | float y => simp [same, unsignZero, Double.same_iff]
    | _ => simp [same, unsignZero]
  | _ => cases w <;> simp [same, unsignZero]

namespace Predicate

mutual

/-- The tree without the signs of zeros. -/
def unsignZeros : Predicate → Predicate
  | .compare relation key value => .compare relation key value.unsignZero
  | .member key values => .member key (values.map Value.unsignZero)
  | .join connective conditions => .join connective (unsignZerosAll conditions)
  | .negate condition => .negate (unsignZeros condition)

/-- Several trees without the signs of zeros. -/
def unsignZerosAll : List Predicate → List Predicate
  | [] => []
  | p :: rest => unsignZeros p :: unsignZerosAll rest

end

@[simp] theorem unsignZerosAll_eq_map (ps : List Predicate) :
    unsignZerosAll ps = ps.map unsignZeros := by
  induction ps with
  | nil => rfl
  | cons p ps ih => rw [unsignZerosAll, ih, List.map_cons]

/-- **Trees are equal** when they are one tree but for the signs of zeros. -/
theorem same_iff {p q : Predicate} : p.same q = true ↔ p.unsignZeros = q.unsignZeros := by
  induction p generalizing q with
  | compare relation key value =>
    cases q <;> simp [same, unsignZeros, Value.same_iff, and_assoc]
  | member key values =>
    cases q with
    | member key' values' =>
      rw [same, unsignZeros, unsignZeros, member.injEq, Bool.and_eq_true, beq_iff_eq,
        sameValues_eq_isEqv]
      exact and_congr_right fun _ => isEqv_iff_map_eq fun _ _ _ => Value.same_iff
    | _ => simp [same, unsignZeros]
  | join connective conditions ih =>
    cases q with
    | join connective' conditions' =>
      rw [same, unsignZeros, unsignZeros, join.injEq, Bool.and_eq_true, beq_iff_eq,
        sameAll_eq_isEqv, unsignZerosAll_eq_map, unsignZerosAll_eq_map]
      exact and_congr_right fun _ => isEqv_iff_map_eq fun p hp _ => ih p hp
    | _ => simp [same, unsignZeros]
  | negate condition ih => cases q <;> simp [same, unsignZeros, ih]

/-- **Equality of trees** is an equivalence, since no double in a tree differs
from itself. -/
theorem equivalence_same : Equivalence fun p q : Predicate => p.same q = true where
  refl _ := same_iff.2 rfl
  symm h := same_iff.2 (same_iff.1 h).symm
  trans h h' := same_iff.2 ((same_iff.1 h).trans (same_iff.1 h'))

end Predicate

/-! ## Canonical forms -/

/-- **Entries whose names ascend** stay as they are, except that their values
become normal. -/
theorem Json.normalizeEntries_of_pairwise {entries : List (String × Json)}
    (h : (entries.map Prod.fst).Pairwise (· < ·)) :
    normalizeEntries entries = entries.map fun e => (e.1, e.2.normalize) := by
  induction entries with
  | nil => rfl
  | cons entry rest ih =>
    obtain ⟨name, value⟩ := entry
    rw [List.map_cons, List.pairwise_cons] at h
    rw [normalizeEntries, ih h.2]
    cases rest with
    | nil => rfl
    | cons next rest =>
      have hlt : name < next.1 := h.1 _ List.mem_cons_self
      rw [List.map_cons, insertEarlier, if_pos hlt]
      rfl

@[simp] theorem Value.toJson_unsignZero (v : Value) :
    v.unsignZero.toJson = v.toJson.unsignZeros := by
  cases v <;> rfl

@[simp] theorem Value.normalize_unsignZero (v : Value) :
    v.unsignZero.normalize = v.normalize.unsignZero := by
  cases v with
  | uint n =>
    simp only [unsignZero, normalize, ofUInt64]
    split
    · rfl
    · rfl
  | _ => rfl

namespace Predicate

@[simp] theorem canonical_unsignZeros (p : Predicate) :
    p.unsignZeros.canonical = p.canonical.unsignZeros := by
  induction p with
  | compare relation key value =>
    rw [unsignZeros, canonical, canonical, Value.toJson_unsignZero]
    rfl
  | member key values =>
    have hvalues : (values.map Value.unsignZero).map Value.toJson
        = (values.map Value.toJson).map Json.unsignZeros :=
      map_map_congr fun v _ => v.toJson_unsignZero
    rw [unsignZeros, canonical, canonical, hvalues, ← Json.unsignZerosItems_eq_map]
    rfl
  | join connective conditions ih =>
    have hconditions : (conditions.map unsignZeros).map canonical
        = (conditions.map canonical).map Json.unsignZeros :=
      map_map_congr ih
    rw [unsignZeros, unsignZerosAll_eq_map, canonical, canonical, canonicals_eq_map, hconditions,
      canonicals_eq_map, ← Json.unsignZerosItems_eq_map]
    rfl
  | negate condition ih =>
    rw [unsignZeros, canonical, canonical, ih]
    rfl

@[simp] theorem normalize_unsignZeros (p : Predicate) :
    p.unsignZeros.normalize = p.normalize.unsignZeros := by
  induction p with
  | compare relation key value =>
    rw [unsignZeros, normalize, normalize, unsignZeros, Value.normalize_unsignZero]
  | member key values =>
    have hvalues : (values.map Value.unsignZero).map Value.normalize
        = (values.map Value.normalize).map Value.unsignZero :=
      map_map_congr fun v _ => v.normalize_unsignZero
    rw [unsignZeros, normalize, normalize, unsignZeros, hvalues]
  | join connective conditions ih =>
    have hconditions : (conditions.map unsignZeros).map normalize
        = (conditions.map normalize).map unsignZeros :=
      map_map_congr ih
    rw [unsignZeros, unsignZerosAll_eq_map, normalize, normalizeAll_eq_map, hconditions, normalize,
      normalizeAll_eq_map, unsignZeros, unsignZerosAll_eq_map]
  | negate condition ih => rw [unsignZeros, normalize, normalize, unsignZeros, ih]

/-- **A canonical form is in normal form**: its names ascend, and none comes
twice. -/
@[simp] theorem normalize_canonical (p : Predicate) : p.canonical.normalize = p.canonical := by
  induction p with
  | compare relation key value =>
    rw [canonical, Json.normalize, Json.normalizeEntries_of_pairwise]
    · simp only [List.map_cons, List.map_nil, Json.normalize, Value.normalize_toJson]
    · show ["key", "op", "value"].Pairwise (· < ·)
      decide
  | member key values =>
    have hvalues : (values.map Value.toJson).map Json.normalize = values.map Value.toJson := by
      rw [List.map_map]
      exact List.map_congr_left fun v _ => v.normalize_toJson
    rw [canonical, Json.normalize, Json.normalizeEntries_of_pairwise]
    · simp only [List.map_cons, List.map_nil, Json.normalize, Json.normalizeItems_eq_map, hvalues]
    · show ["key", "op", "values"].Pairwise (· < ·)
      decide
  | join connective conditions ih =>
    have hconditions : (conditions.map canonical).map Json.normalize
        = conditions.map canonical := by
      rw [List.map_map]
      exact List.map_congr_left ih
    rw [canonical, Json.normalize, Json.normalizeEntries_of_pairwise]
    · simp only [List.map_cons, List.map_nil, Json.normalize, Json.normalizeItems_eq_map,
        canonicals_eq_map, hconditions]
    · show ["conditions", "op"].Pairwise (· < ·)
      decide
  | negate condition ih =>
    rw [canonical, Json.normalize, Json.normalizeEntries_of_pairwise]
    · simp only [List.map_cons, List.map_nil, Json.normalize, ih]
    · show ["condition", "op"].Pairwise (· < ·)
      decide

/-- **Canonical forms are equal exactly when trees are**, once these are in
normal form. Equality of trees is an equivalence. -/
theorem same_canonical_iff :
    (∀ p q : Predicate, p.canonical.same q.canonical = true ↔ p.normalize.same q.normalize = true)
      ∧ Equivalence fun p q : Predicate => p.same q = true := by
  refine ⟨fun p q => ?_, equivalence_same⟩
  calc p.canonical.same q.canonical = true
      ↔ p.canonical.unsignZeros = q.canonical.unsignZeros := by
        rw [Json.same, normalize_canonical, normalize_canonical, Json.sameForm_iff]
    _ ↔ p.unsignZeros.canonical = q.unsignZeros.canonical := by
        rw [canonical_unsignZeros, canonical_unsignZeros]
    _ ↔ p.unsignZeros.normalize = q.unsignZeros.normalize := canonical_eq_iff
    _ ↔ p.normalize.unsignZeros = q.normalize.unsignZeros := by
        rw [normalize_unsignZeros, normalize_unsignZeros]
    _ ↔ p.normalize.same q.normalize = true := same_iff.symm

end Predicate

end FilterTree
