import FilterTree.Proofs.CanonicalForm
import FilterTree.Proofs.TextDecoding
import FilterTree.Proofs.Writing

/-!
# From a tree to text and back

A tree is written as the text of its canonical form. That text is decoded to
the tree again, if the tree does not nest too deep for a reader and if it
is in normal form and meaningful. Of the doubles in it nothing is assumed
but that the text of each reads back by itself.

The bound on nesting is exact, and what happens beyond it is certain too:
the text is refused as malformed, since a reader meets the part that nests
too deep before it has read the operator
(`Predicate.ofText_toText_canonical`).
-/

namespace FilterTree

namespace Value

@[simp] theorem nesting_toJson (v : Value) : v.toJson.nesting = 0 := by
  cases v <;> rfl

/-- A value is legible unless it is a double that is not. -/
theorem legible_toJson {v : Value} (h : ∀ x, v = .float x → (Number.float x).Legible) :
    v.toJson.Legible := by
  cases v with
  | null => exact .null
  | bool b => exact .bool b
  | int n => exact .number (Number.legible_integer _ _ _)
  | uint n => exact .number (Number.legible_integer _ _ _)
  | float x => exact .number (h x rfl)
  | text s => exact .text s

end Value

@[simp] theorem Json.head_eq_number_iff {j : Json} {n : Number} :
    j.head = .number n ↔ j = .number n := by
  cases j <;> simp [head]

namespace Predicate

/-! ## Canonical forms as documents -/

@[simp] theorem maxNesting_map_toJson (values : List Value) :
    Json.maxNesting (values.map Value.toJson) = 0 := by
  induction values with
  | nil => rfl
  | cons v values ih => rw [List.map_cons, Json.maxNesting, v.nesting_toJson, ih, Nat.max_self]

theorem maxNesting_map_canonical {ps : List Predicate}
    (h : ∀ p ∈ ps, p.canonical.nesting = p.nesting) :
    Json.maxNesting (ps.map canonical) = maxNesting ps := by
  induction ps with
  | nil => rfl
  | cons p ps ih =>
    obtain ⟨hp, hps⟩ := List.forall_mem_cons.1 h
    rw [List.map_cons, Json.maxNesting, hp, ih hps, maxNesting]

/-- **The canonical form nests** as the tree says. -/
@[simp] theorem nesting_canonical (p : Predicate) : p.canonical.nesting = p.nesting := by
  induction p with
  | compare relation key value =>
    simp [canonical, nesting, Json.nesting, Json.maxNestingOfValues]
  | member key values =>
    simp [canonical, nesting, Json.nesting, Json.maxNestingOfValues]
  | join connective conditions ih =>
    rw [canonical, canonicals_eq_map]
    simp only [nesting, Json.nesting, Json.maxNestingOfValues, maxNesting_map_canonical ih,
      Nat.max_self, Nat.max_zero]
    omega
  | negate condition ih =>
    simp [canonical, nesting, Json.nesting, Json.maxNestingOfValues, ih]

/-- **The canonical form is legible** if every double in the tree is. -/
theorem legible_canonical {p : Predicate}
    (h : ∀ x, .float x ∈ p.constants → (Number.float x).Legible) : p.canonical.Legible := by
  induction p with
  | compare relation key value =>
    have hvalue : value.toJson.Legible := by
      refine Value.legible_toJson fun x hx => h x ?_
      rw [constants_compare, hx]
      exact List.mem_singleton_self _
    rw [canonical]
    refine .object ?_
    simp only [List.forall_mem_cons]
    exact ⟨.text key, .text _, hvalue, List.forall_mem_nil _⟩
  | member key values =>
    rw [constants_member] at h
    have hvalues : ∀ j ∈ values.map Value.toJson, j.Legible := by
      refine List.forall_mem_map.2 fun v hv => Value.legible_toJson fun x hx => h x ?_
      exact hx ▸ hv
    rw [canonical]
    refine .object ?_
    simp only [List.forall_mem_cons]
    exact ⟨.text key, .text _, .array hvalues, List.forall_mem_nil _⟩
  | join connective conditions ih =>
    have hconditions : ∀ j ∈ conditions.map canonical, j.Legible := by
      refine List.forall_mem_map.2 fun p hp => ih p hp fun x hx => h x ?_
      exact mem_constants_join.2 ⟨p, hp, hx⟩
    rw [canonical, canonicals_eq_map]
    refine .object ?_
    simp only [List.forall_mem_cons]
    exact ⟨.array hconditions, .text _, List.forall_mem_nil _⟩
  | negate condition ih =>
    rw [canonical]
    refine .object ?_
    simp only [List.forall_mem_cons]
    exact ⟨ih h, .text _, List.forall_mem_nil _⟩

theorem leaves_repeat_negate (n : Nat) (p : Predicate) :
    (Nat.repeat negate n p).leaves = p.leaves := by
  induction n with
  | zero => rfl
  | succ n ih => rw [Nat.repeat, leaves, ih]

theorem nesting_repeat_negate (n : Nat) (p : Predicate) :
    (Nat.repeat negate n p).nesting = n + p.nesting := by
  induction n with
  | zero => rw [Nat.repeat, Nat.zero_add]
  | succ n ih => rw [Nat.repeat, nesting, ih, ← Nat.add_assoc, Nat.add_comm 1 n]

/-! ## Decoding the text of a canonical form -/

/-- The first entry of a canonical form that nests deeper than a reader
follows is no operator and nests too deep by itself. -/
theorem exists_deep_entry {p : Predicate} (h : maxLevels < p.nesting) :
    ∃ name value rest, p.canonical = .object ((name, value) :: rest) ∧ name ≠ "op"
      ∧ levelsBelowRoot < value.nesting := by
  have hlevels : maxLevels = levelsBelowRoot + 1 := rfl
  rw [← nesting_canonical] at h
  cases p with
  -- a leaf takes two levels at most
  | compare relation key value =>
    rw [nesting_canonical, nesting] at h
    exact absurd h (by decide)
  | member key values =>
    rw [nesting_canonical, nesting] at h
    exact absurd h (by decide)
  | join connective conditions =>
    refine ⟨_, _, _, by rw [canonical], by decide, ?_⟩
    simp only [canonical, Json.nesting, Json.maxNestingOfValues, Nat.max_self, Nat.max_zero] at h ⊢
    omega
  | negate condition =>
    refine ⟨_, _, _, by rw [canonical], by decide, ?_⟩
    simp only [canonical, Json.nesting, Json.maxNestingOfValues, Nat.max_self, Nat.max_zero] at h ⊢
    omega

/-- A root whose first entry nests too deep is malformed, whatever comes
after that entry. -/
theorem ofOutline_of_deep_entry {name : String} {value : Json} {rest : List (String × Json)}
    {outlines : List (List Piece × Outline)}
    (h : List.Forall₂ Json.EntryWrittenAs ((name, value) :: rest) outlines) (hname : name ≠ "op")
    (hdeep : levelsBelowRoot < value.nesting) :
    ofOutline (.object outlines true) = .error .malformed := by
  obtain ⟨⟨pieces, o⟩, others, ⟨rfl, hvalue⟩, -, rfl⟩ := List.forall₂_cons_left_iff.1 h
  have hpart : rootPart o = .error .malformed := by
    rw [rootPart, hvalue.document, if_neg (Nat.not_le.2 hdeep)]
    rfl
  have hentries : rootEntries false ((piecesOf name, o) :: others) = .error .malformed := by
    rw [rootEntries, textOf?_piecesOf]
    show (if name = "op" then _ else _) = _
    rw [if_neg hname, hpart]
    rfl
  rw [ofOutline, rootDocument, hentries]
  rfl

/-- **A tree comes back from its text** if it is in normal form, its leaves
mean something, the text of every double in it reads back, and it nests no
deeper than a reader follows. If it nests deeper, the text is malformed for
the reader. -/
theorem ofText_toText_canonical (p : Predicate) (hmeaning : p.IsMeaningful)
    (hnormal : ∀ n, .uint n ∈ p.constants → 0x8000000000000000 ≤ n.toNat)
    (hfloats : ∀ x, .float x ∈ p.constants →
      Json.ofText? (Json.number (.float x)).toText = some (.number (.float x))) :
    (p.nesting ≤ 127 → (ofText p.canonical.toText).outcome.1 = .ok p)
      ∧ (127 < p.nesting → (ofText p.canonical.toText).outcome.1 = .error .malformed) := by
  have hlegible : p.canonical.Legible :=
    legible_canonical fun x hx => Number.legible_of_ofText? (hfloats x hx)
  constructor
  · -- the document that is read back is the canonical form, and that denotes the tree
    intro hnesting
    have hself : p.normalize = p :=
      normalize_eq_self fun v hv => Value.normalize_eq_self fun n hn => hnormal n (hn ▸ hv)
    refine outcome_ofText_eq_ok_iff_denotes.2 ⟨p.canonical, ?_, ?_, hmeaning⟩
    · have hlevels : p.nesting ≤ maxLevels := hnesting
      rw [hlegible.toJson?_ofText_toText, nesting_canonical, if_pos hlevels]
    · have hdenotes := p.canonical_denotes .root
      rwa [hself] at hdenotes
  · -- the entry that nests too deep comes before the operator
    intro hnesting
    obtain ⟨name, value, rest, hcanonical, hname, hdeep⟩ := exists_deep_entry hnesting
    rw [hcanonical] at hlegible ⊢
    cases hlegible with
    | object hvalues =>
      obtain ⟨outlines, houtlines⟩ := Json.exists_entries_writtenAs fun entry hentry =>
        (hvalues entry hentry).exists_writtenAs
      have hfault : ofOutline (Reading.ofText (Json.object ((name, value) :: rest)).toText).outline
          = .error .malformed := by
        rw [(Json.writtenAs_object houtlines).ofText_toText]
        exact ofOutline_of_deep_entry houtlines hname hdeep
      rw [outcome_ofText_of_error hfault]

/-- A conjunction with a double, an escaped text and a large integer comes
back from its text, and under 123 negations its text is malformed. -/
theorem ofText_toText_canonical_of_mixed_leaves :
    let half : Double := ⟨false, 0x3FE0000000000000, by decide⟩
    let p : Predicate := .join .and [.compare .less "k" (.float half),
      .negate (.member "a\n" [.null, .uint 0xFFFFFFFFFFFFFFFF])]
    (ofText p.canonical.toText).outcome.1 = .ok p
      ∧ (ofText (Nat.repeat negate 123 p).canonical.toText).outcome.1 = .error .malformed := by
  intro half p
  have hmeaning : p.IsMeaningful := by
    simp [p, IsMeaningful, leaves, leavesAll, key?, values?]
  have hnormal : ∀ n, Value.uint n ∈ p.constants → 0x8000000000000000 ≤ n.toNat := by
    simp [p, constants, leaves, leavesAll, leafConstants]
  have hfloats : ∀ x, Value.float x ∈ p.constants →
      Json.ofText? (Json.number (.float x)).toText = some (.number (.float x)) := by
    intro x hx
    obtain rfl : x = half := by
      simpa [p, constants, leaves, leavesAll, leafConstants] using hx
    have hhead : (Json.ofText? (Json.number (.float half)).toText).map Json.head
        = some (.number (.float half)) := by
      decide +kernel
    obtain ⟨j, hj, hhead⟩ := Option.map_eq_some_iff.1 hhead
    obtain rfl := Json.head_eq_number_iff.1 hhead
    exact hj
  have hconstants : (Nat.repeat negate 123 p).constants = p.constants := by
    rw [constants, leaves_repeat_negate, constants]
  refine ⟨(ofText_toText_canonical p hmeaning hnormal hfloats).1 (by decide),
    (ofText_toText_canonical (Nat.repeat negate 123 p) ?_ ?_ ?_).2 ?_⟩
  · rwa [IsMeaningful, leaves_repeat_negate]
  · rwa [hconstants]
  · rwa [hconstants]
  · rw [nesting_repeat_negate]
    decide

end Predicate

end FilterTree
