import FilterTree.Proofs.Grammar

/-!
# Repeated names

In the normal form of a document each name of an object has its last value.
What a document denotes, its normal form denotes too
(`Json.readsAs_normalize`): the names that count come once, and for them
nothing changes. The converse needs more. A name that comes twice may keep
an object from being a node, but in the normal form it comes once. So the
two denote the same where no object repeats a name (`Json.NamesOnce`,
`Json.normalize_readsAs`).
-/

namespace FilterTree.Json

/-- **Names once**: no object in the document has a name twice. -/
inductive NamesOnce : Json → Prop
  /-- The null has no names. -/
  | null : NamesOnce .null
  /-- A boolean has no names. -/
  | bool (b : Bool) : NamesOnce (.bool b)
  /-- A number has no names. -/
  | number (n : Number) : NamesOnce (.number n)
  /-- A string has no names. -/
  | text (s : String) : NamesOnce (.text s)
  /-- An array of such documents. -/
  | array {items : List Json} (items_once : ∀ j ∈ items, NamesOnce j) : NamesOnce (.array items)
  /-- An object of different names and such documents. -/
  | object {entries : List (String × Json)} (nodup : (entries.map Prod.fst).Nodup)
    (values_once : ∀ entry ∈ entries, NamesOnce entry.2) : NamesOnce (.object entries)

/-! ## Entries of a normal form -/

/-- An entry whose name is new becomes the only one of that name. -/
theorem entriesOf_insertEarlier_self {name : String} (value : Json)
    {entries : List (String × Json)} (h : entriesOf name entries = []) :
    entriesOf name (insertEarlier name value entries) = [(name, value)] := by
  induction entries with
  | nil => exact entriesOf_cons_self name value []
  | cons entry rest ih =>
    obtain ⟨other, later⟩ := entry
    have hne : other ≠ name := by
      rintro rfl
      rw [entriesOf_cons_self] at h
      exact absurd h (List.cons_ne_nil _ _)
    rw [insertEarlier]
    split
    · rw [entriesOf_cons_self, h]
    · rw [if_neg (Ne.symm hne), entriesOf_cons_of_ne hne]
      exact ih (by rwa [entriesOf_cons_of_ne hne] at h)

/-- An entry of another name changes nothing about a name. -/
theorem entriesOf_insertEarlier_of_ne {name other : String} (h : other ≠ name) (value : Json)
    (entries : List (String × Json)) :
    entriesOf name (insertEarlier other value entries) = entriesOf name entries := by
  induction entries with
  | nil => exact entriesOf_cons_of_ne h value []
  | cons entry rest ih =>
    obtain ⟨third, later⟩ := entry
    rw [insertEarlier]
    split
    · exact entriesOf_cons_of_ne h value _
    · split
      · rfl
      · by_cases hthird : third = name
        · subst hthird
          rw [entriesOf_cons_self, entriesOf_cons_self, ih]
        · rw [entriesOf_cons_of_ne hthird, entriesOf_cons_of_ne hthird, ih]

theorem entriesOf_normalizeEntries_eq_nil {name : String} {entries : List (String × Json)}
    (h : entriesOf name entries = []) : entriesOf name (normalizeEntries entries) = [] := by
  induction entries with
  | nil => rfl
  | cons entry rest ih =>
    obtain ⟨other, value⟩ := entry
    by_cases hother : other = name
    · subst hother
      rw [entriesOf_cons_self] at h
      exact absurd h (List.cons_ne_nil _ _)
    · rw [entriesOf_cons_of_ne hother] at h
      rw [normalizeEntries, entriesOf_insertEarlier_of_ne hother]
      exact ih h

/-- **The only entry of a name** stays the only one, with the normal form of
its value. -/
theorem SoleEntry.normalizeEntries {name : String} {value : Json}
    {entries : List (String × Json)} (h : SoleEntry entries name value) :
    SoleEntry (normalizeEntries entries) name value.normalize := by
  induction entries with
  | nil => exact absurd h nofun
  | cons entry rest ih =>
    obtain ⟨other, first⟩ := entry
    rw [Json.normalizeEntries]
    by_cases hother : other = name
    · subst hother
      rw [SoleEntry, entriesOf_cons_self] at h
      obtain ⟨rfl, hrest⟩ : first = value ∧ entriesOf other rest = [] := by simpa using h
      exact entriesOf_insertEarlier_self _ (entriesOf_normalizeEntries_eq_nil hrest)
    · rw [SoleEntry, entriesOf_cons_of_ne hother] at h
      rw [SoleEntry, entriesOf_insertEarlier_of_ne hother]
      exact ih h

/-- **A name that comes once at most** comes in the normal form as often, with
the normal form of its value. -/
theorem entriesOf_normalizeEntries {name : String} {entries : List (String × Json)}
    (h : (entriesOf name entries).length ≤ 1) :
    entriesOf name (Json.normalizeEntries entries)
      = (entriesOf name entries).map fun entry => (entry.1, entry.2.normalize) := by
  match hentries : entriesOf name entries with
  | [] => exact entriesOf_normalizeEntries_eq_nil hentries
  | [(other, value)] =>
    have hmem : (other, value) ∈ entriesOf name entries := hentries ▸ List.mem_singleton_self _
    obtain rfl : other = name := of_decide_eq_true (List.mem_filter.1 hmem).2
    exact SoleEntry.normalizeEntries hentries
  | _ :: _ :: _ =>
    rw [hentries] at h
    exact absurd h (by simp)

/-- Where each name comes once, a given one comes once at most. -/
theorem length_entriesOf_le_one {entries : List (String × Json)}
    (h : (entries.map Prod.fst).Nodup) (name : String) :
    (entriesOf name entries).length ≤ 1 := by
  match hentries : entriesOf name entries with
  | [] => exact Nat.zero_le 1
  | (other, value) :: rest =>
    have hmem : (other, value) ∈ entriesOf name entries := hentries ▸ List.mem_cons_self
    obtain ⟨hentry, hname⟩ := List.mem_filter.1 hmem
    obtain rfl : other = name := of_decide_eq_true hname
    have hsole : entriesOf other entries = [(other, value)] := (soleEntry_iff_mem h).2 hentry
    rw [← hentries, hsole]
    exact Nat.le_refl 1

/-- **The only entry of a name** in the normal form is that of the document,
if the name comes once at most. -/
theorem SoleEntry.of_normalizeEntries {entries : List (String × Json)} {name : String}
    {value : Json} (h : SoleEntry (Json.normalizeEntries entries) name value)
    (honce : (entriesOf name entries).length ≤ 1) :
    ∃ original, SoleEntry entries name original ∧ value = original.normalize := by
  rw [SoleEntry, entriesOf_normalizeEntries honce, List.map_eq_singleton_iff] at h
  obtain ⟨⟨other, original⟩, hentries, hentry⟩ := h
  obtain ⟨rfl, rfl⟩ := Prod.mk.inj hentry
  exact ⟨original, hentries, rfl⟩

/-- Inserting an entry whose name is new adds the entry. -/
theorem insertEarlier_perm {name : String} (value : Json) {entries : List (String × Json)}
    (h : name ∉ entries.map Prod.fst) :
    (insertEarlier name value entries).Perm ((name, value) :: entries) := by
  induction entries with
  | nil => exact .refl _
  | cons entry rest ih =>
    obtain ⟨other, later⟩ := entry
    rw [List.map_cons, List.mem_cons, not_or] at h
    obtain ⟨hother, hrest⟩ := h
    rw [insertEarlier, if_neg hother]
    split
    · exact .refl _
    · exact ((ih hrest).cons _).trans (.swap ..)

/-- **Where each name comes once**, the normal form has the same entries in
another order, with their values in normal form. -/
theorem normalizeEntries_perm {entries : List (String × Json)}
    (h : (entries.map Prod.fst).Nodup) :
    (Json.normalizeEntries entries).Perm
      (entries.map fun entry => (entry.1, entry.2.normalize)) := by
  induction entries with
  | nil => exact .refl _
  | cons entry rest ih =>
    obtain ⟨name, value⟩ := entry
    rw [List.map_cons, List.nodup_cons] at h
    have hrest := ih h.2
    have hnew : name ∉ (Json.normalizeEntries rest).map Prod.fst := by
      rw [(hrest.map Prod.fst).mem_iff, List.map_map]
      exact h.1
    rw [Json.normalizeEntries, List.map_cons]
    exact (insertEarlier_perm _ hnew).trans (hrest.cons _)

/-! ## What a normal form denotes -/

/-- A normal form is an array when the document is one, of the normal forms
of its items. -/
theorem normalize_eq_array_iff {j : Json} {items : List Json} :
    j.normalize = .array items ↔ ∃ originals, j = .array originals
      ∧ items = originals.map normalize := by
  cases j with
  | array originals =>
    rw [normalize, normalizeItems_eq_map]
    simp only [array.injEq, exists_eq_left', eq_comm]
  | null => exact iff_of_false nofun nofun
  | bool b => exact iff_of_false nofun nofun
  | number n => exact iff_of_false nofun nofun
  | text s => exact iff_of_false nofun nofun
  | object entries => exact iff_of_false nofun nofun

@[simp] theorem normalize_eq_text_iff {j : Json} {s : String} :
    j.normalize = .text s ↔ j = .text s := by
  cases j <;> simp [normalize]

@[simp] theorem denotesOperator_normalize_iff {j : Json} {place : Place} {operator : Operator} :
    j.normalize.DenotesOperator place operator ↔ j.DenotesOperator place operator := by
  rw [← ofHead_eq_ok_iff, ← ofHead_eq_ok_iff, head_normalize]

@[simp] theorem denotesValue_normalize_iff {j : Json} {v : Value} :
    j.normalize.DenotesValue v ↔ j.DenotesValue v := by
  rw [← ofJson_eq_ok_iff, ← ofJson_eq_ok_iff, Value.ofJson, Value.ofJson, head_normalize]

@[simp] theorem denotesValues_normalize_iff {j : Json} {vs : List Value} :
    j.normalize.DenotesValues vs ↔ j.DenotesValues vs := by
  unfold DenotesValues
  simp only [normalize_eq_array_iff]
  constructor
  · rintro ⟨_, ⟨items, rfl, rfl⟩, h⟩
    rw [List.forall₂_map_left_iff] at h
    exact ⟨items, rfl, h.imp fun _ _ => denotesValue_normalize_iff.1⟩
  · rintro ⟨items, rfl, h⟩
    refine ⟨items.map normalize, ⟨items, rfl, rfl⟩, ?_⟩
    rw [List.forall₂_map_left_iff]
    exact h.imp fun _ _ => denotesValue_normalize_iff.2

/-- **One document in the place of another**: whatever the first denotes, as
a node or as a part of one, the second denotes too. -/
structure ReadsAs (j i : Json) : Prop where
  /-- The same string. -/
  text : ∀ s, j = .text s → i = .text s
  /-- The same value. -/
  value : ∀ v, j.DenotesValue v → i.DenotesValue v
  /-- The same list of values. -/
  values : ∀ vs, j.DenotesValues vs → i.DenotesValues vs
  /-- The same node. -/
  node : ∀ place p, j.Denotes place p → i.Denotes place p
  /-- The same list of nodes. -/
  nodes : ∀ ps, j.DenotesNodes ps → i.DenotesNodes ps

/-- **Parts in the place of others** denote what those denote. -/
theorem PartsDenote.of_readsAs {operator : Operator} {parts others : List Json} {p : Predicate}
    (h : PartsDenote operator parts p) (hothers : List.Forall₂ ReadsAs parts others) :
    PartsDenote operator others p := by
  cases h with
  | compare value =>
    simp only [List.forall₂_cons_left_iff, List.forall₂_nil_left_iff] at hothers
    obtain ⟨i, _, hi, ⟨k, _, hk, rfl, rfl⟩, rfl⟩ := hothers
    obtain rfl := hi.text _ rfl
    exact .compare (hk.value _ value)
  | member values =>
    simp only [List.forall₂_cons_left_iff, List.forall₂_nil_left_iff] at hothers
    obtain ⟨i, _, hi, ⟨k, _, hk, rfl, rfl⟩, rfl⟩ := hothers
    obtain rfl := hi.text _ rfl
    obtain ⟨items, rfl, hitems⟩ := hk.values _ ⟨_, rfl, values⟩
    exact .member hitems
  | join conditions =>
    simp only [List.forall₂_cons_left_iff, List.forall₂_nil_left_iff] at hothers
    obtain ⟨i, _, hi, rfl, rfl⟩ := hothers
    obtain ⟨items, rfl, hitems⟩ := hi.nodes _ ⟨_, rfl, conditions⟩
    exact .join hitems
  | negate condition =>
    simp only [List.forall₂_cons_left_iff, List.forall₂_nil_left_iff] at hothers
    obtain ⟨i, _, hi, rfl, rfl⟩ := hothers
    exact .negate (hi.node _ _ condition)

/-- A normal form stands for its document as soon as it denotes the same
nodes. -/
theorem readsAs_normalize_of_nodes {j : Json}
    (node : ∀ place p, j.Denotes place p → j.normalize.Denotes place p)
    (nodes : ∀ ps, j.DenotesNodes ps → j.normalize.DenotesNodes ps) :
    j.ReadsAs j.normalize where
  text _ := normalize_eq_text_iff.2
  value _ := denotesValue_normalize_iff.2
  values _ := denotesValues_normalize_iff.2
  node := node
  nodes := nodes

/-- **The normal form stands for the document**, whatever names it
repeats. -/
theorem readsAs_normalize (j : Json) : j.ReadsAs j.normalize := by
  induction j with
  | array items ih =>
    refine readsAs_normalize_of_nodes (fun place p h => ?_) fun ps h => ?_
    · cases h with
      | @array _ tag _ parts _ hop hp =>
        rw [normalize, normalizeItems_eq_map]
        refine .array (denotesOperator_normalize_iff.2 hop) (hp.of_readsAs ?_)
        rw [List.forall₂_map_right_iff, List.forall₂_same]
        exact fun j hj => ih j (List.mem_cons_of_mem tag hj)
    · obtain ⟨_, ⟨rfl⟩, h⟩ := h
      refine ⟨items.map normalize, by rw [normalize, normalizeItems_eq_map], ?_⟩
      rw [List.forall₂_map_left_iff]
      exact forall₂_imp_of_mem (fun j hj => (ih j hj).node .child) h
  | object entries ih =>
    refine readsAs_normalize_of_nodes (fun place p h => ?_) fun ps h => absurd h nofun
    cases h with
    | object hop htag hfields hp =>
      rw [normalize]
      refine .object hop.normalizeEntries (denotesOperator_normalize_iff.2 htag)
        (List.forall₂_map_right_iff.2 (hfields.imp fun _ _ => SoleEntry.normalizeEntries))
        (hp.of_readsAs ?_)
      rw [List.forall₂_map_right_iff, List.forall₂_same]
      intro j hj
      obtain ⟨name, -, hname⟩ := exists_of_forall₂_of_mem_right hfields hj
      exact ih (name, j) hname.mem
  | null => exact readsAs_normalize_of_nodes (fun _ _ h => h) fun _ h => h
  | bool b => exact readsAs_normalize_of_nodes (fun _ _ h => h) fun _ h => h
  | number n => exact readsAs_normalize_of_nodes (fun _ _ h => h) fun _ h => h
  | text s => exact readsAs_normalize_of_nodes (fun _ _ h => h) fun _ h => h

/-- A document stands for its normal form as soon as it denotes the same
nodes. -/
theorem normalize_readsAs_of_nodes {j : Json}
    (node : ∀ place p, j.normalize.Denotes place p → j.Denotes place p)
    (nodes : ∀ ps, j.normalize.DenotesNodes ps → j.DenotesNodes ps) :
    j.normalize.ReadsAs j where
  text _ := normalize_eq_text_iff.1
  value _ := denotesValue_normalize_iff.1
  values _ := denotesValues_normalize_iff.1
  node := node
  nodes := nodes

/-- Fields of a normal form are the normal forms of fields, where each name
comes once. -/
theorem exists_fields_of_normalizeEntries {entries : List (String × Json)}
    (hnodup : (entries.map Prod.fst).Nodup) {names : List String} {parts : List Json}
    (h : List.Forall₂ (SoleEntry (normalizeEntries entries)) names parts) :
    ∃ originals, List.Forall₂ (SoleEntry entries) names originals
      ∧ parts = originals.map normalize := by
  induction h with
  | nil => exact ⟨[], .nil, rfl⟩
  | cons hfield _ ih =>
    obtain ⟨original, horiginal, rfl⟩ :=
      hfield.of_normalizeEntries (length_entriesOf_le_one hnodup _)
    obtain ⟨originals, horiginals, rfl⟩ := ih
    exact ⟨original :: originals, .cons horiginal horiginals, rfl⟩

/-- **A document stands for its normal form** if no object repeats a
name. -/
theorem normalize_readsAs {j : Json} (h : j.NamesOnce) : j.normalize.ReadsAs j := by
  induction j with
  | array items ih =>
    obtain hitems : ∀ j ∈ items, j.NamesOnce := by
      cases h with
      | array hitems => exact hitems
    refine normalize_readsAs_of_nodes (fun place p hd => ?_) fun ps hd => ?_
    · rw [normalize, normalizeItems_eq_map] at hd
      cases items with
      | nil => exact absurd hd nofun
      | cons tag parts =>
        rw [List.map_cons] at hd
        cases hd with
        | array hop hp =>
          refine .array (denotesOperator_normalize_iff.1 hop) (hp.of_readsAs ?_)
          rw [List.forall₂_map_left_iff, List.forall₂_same]
          intro j hj
          have hmem : j ∈ tag :: parts := List.mem_cons_of_mem tag hj
          exact ih j hmem (hitems j hmem)
    · obtain ⟨_, hd, hps⟩ := hd
      rw [normalize, normalizeItems_eq_map] at hd
      obtain rfl := Json.array.inj hd
      rw [List.forall₂_map_left_iff] at hps
      exact ⟨items, rfl, forall₂_imp_of_mem (fun j hj => (ih j hj (hitems j hj)).node .child) hps⟩
  | object entries ih =>
    obtain ⟨hnodup, hvalues⟩ : (entries.map Prod.fst).Nodup
        ∧ ∀ entry ∈ entries, NamesOnce entry.2 := by
      cases h with
      | object hnodup hvalues => exact ⟨hnodup, hvalues⟩
    -- only here it matters that no name comes twice
    refine normalize_readsAs_of_nodes (fun place p hd => ?_) fun ps hd => absurd hd nofun
    rw [normalize] at hd
    cases hd with
    | object hop htag hfields hp =>
      obtain ⟨tag, hentry, rfl⟩ := hop.of_normalizeEntries (length_entriesOf_le_one hnodup _)
      obtain ⟨originals, horiginals, rfl⟩ := exists_fields_of_normalizeEntries hnodup hfields
      refine .object hentry (denotesOperator_normalize_iff.1 htag) horiginals
        (hp.of_readsAs ?_)
      rw [List.forall₂_map_left_iff, List.forall₂_same]
      intro j hj
      obtain ⟨name, -, hname⟩ := exists_of_forall₂_of_mem_right horiginals hj
      exact ih (name, j) hname.mem (hvalues (name, j) hname.mem)
  | null => exact normalize_readsAs_of_nodes (fun _ _ h => h) fun _ h => h
  | bool b => exact normalize_readsAs_of_nodes (fun _ _ h => h) fun _ h => h
  | number n => exact normalize_readsAs_of_nodes (fun _ _ h => h) fun _ h => h
  | text s => exact normalize_readsAs_of_nodes (fun _ _ h => h) fun _ h => h

end FilterTree.Json
