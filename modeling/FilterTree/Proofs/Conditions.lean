import FilterTree.Proofs.Grammar

/-!
# Decoding a node and decoding its conditions

Writing is compositional: the canonical form of a composite has the canonical
forms of its conditions in it as they are. Reading is nearly so. A composite
is decoded when every one of its conditions is, and to the composite of what
they are decoded to, but a condition may be spelled in a way that it may not
be spelled on its own. Below another node an operator may go by its place in
the order, and at the root it may not.

There is no other difference between the two places. To give the operator of
a node by its name (`Json.nameOperator`) changes nothing else about the node,
and it turns what denotes a tree below another node into what denotes the
same tree at the root (`Json.denotes_root_nameOperator_iff`). So a composite
is decoded exactly as its conditions are once these name their operators, and
everything that is decoded on its own does that already
(`Predicate.ofCanonical_of_conditions`).
-/

namespace FilterTree

/-- A relation that asks something of what stands on the right asks it of
every member there. -/
theorem forall₂_and_right_iff {α β : Type} {R : α → β → Prop} {P : β → Prop} {as : List α}
    {bs : List β} :
    List.Forall₂ (fun a b => R a b ∧ P b) as bs ↔ List.Forall₂ R as bs ∧ ∀ b ∈ bs, P b := by
  constructor
  · intro h
    refine ⟨h.imp fun _ _ => And.left, fun b hb => ?_⟩
    obtain ⟨a, -, -, hP⟩ := exists_of_forall₂_of_mem_right h hb
    exact hP
  · rintro ⟨hR, hP⟩
    induction hR with
    | nil => exact .nil
    | cons hab _ ih =>
      rw [List.forall_mem_cons] at hP
      exact .cons ⟨hab, hP.1⟩ (ih hP.2)

namespace Operator

theorem name_injective : Function.Injective name := by
  intro a b h
  refine Option.some.inj ?_
  rw [← ofName?_name a, h, ofName?_name]

theorem op_notMem_fields (operator : Operator) : "op" ∉ operator.fields := by
  cases operator <;> simp [fields]

end Operator

namespace Json

/-! ## Naming the operator -/

/-- **The name of an operator** in the place of anything else that denotes
the operator below another node. -/
def nameTag (tag : Json) : Json :=
  match Operator.ofHead .child tag.head with
  | .ok operator => .text operator.name
  | .error _ => tag

/-- An entry with the operator by its name, if that is what the entry is
for. -/
def nameEntry (entry : String × Json) : String × Json :=
  if entry.1 = "op" then ("op", entry.2.nameTag) else entry

/-- **A node with its operator by its name**, and otherwise as it is. -/
def nameOperator : Json → Json
  | .array (tag :: parts) => .array (tag.nameTag :: parts)
  | .object entries => .object (entries.map nameEntry)
  | j => j

theorem DenotesOperator.eq_of_name {operator found : Operator} {place : Place}
    (h : DenotesOperator (.text operator.name) place found) : found = operator := by
  generalize hname : Json.text operator.name = tag at h
  cases h with
  | name => exact (Operator.name_injective (Json.text.inj hname)).symm
  | index => cases hname

/-- What denotes an operator is replaced by the name of that. -/
theorem nameTag_eq_name {tag : Json} {operator : Operator}
    (h : tag.DenotesOperator .child operator) : tag.nameTag = .text operator.name := by
  rw [nameTag, ofHead_eq_ok_iff.2 h]

theorem nameTag_of_denotes_root {tag : Json} {operator : Operator}
    (h : tag.DenotesOperator .root operator) : tag.nameTag = tag := by
  cases h with
  | name => exact nameTag_eq_name (.name .child operator)

/-- **The operator of a root** is the operator of a node below another one,
once it goes by its name. -/
theorem denotesOperator_root_nameTag_iff {tag : Json} {operator : Operator} :
    tag.nameTag.DenotesOperator .root operator ↔ tag.DenotesOperator .child operator := by
  constructor
  · intro h
    rw [nameTag] at h
    split at h
    · rename_i found hfound
      rw [h.eq_of_name]
      exact ofHead_eq_ok_iff.1 hfound
    · cases h with
      | name => exact .name .child operator
  · intro h
    rw [nameTag_eq_name h]
    exact .name .root operator

theorem entriesOf_map_nameEntry (name : String) (entries : List (String × Json)) :
    entriesOf name (entries.map nameEntry) = (entriesOf name entries).map nameEntry := by
  have hname : ∀ entry, (nameEntry entry).1 = entry.1 := by
    intro entry
    unfold nameEntry
    split
    · rename_i hop
      exact hop.symm
    · rfl
  unfold entriesOf
  rw [List.filter_map]
  simp only [Function.comp_def, hname]

/-- Naming the operator leaves all other entries alone. -/
theorem soleEntry_map_nameEntry_of_ne {name : String} (h : name ≠ "op")
    {entries : List (String × Json)} {value : Json} :
    SoleEntry (entries.map nameEntry) name value ↔ SoleEntry entries name value := by
  have hsame : ∀ entry ∈ entriesOf name entries, nameEntry entry = entry := by
    intro entry hentry
    have hentry : entry.1 = name := of_decide_eq_true (List.mem_filter.1 hentry).2
    rw [nameEntry, if_neg (hentry ▸ h)]
  rw [SoleEntry, SoleEntry, entriesOf_map_nameEntry, List.map_congr_left hsame, List.map_id']

/-- Naming the operator names the one that there is. -/
theorem soleEntry_map_nameEntry_op_iff {entries : List (String × Json)} {value : Json} :
    SoleEntry (entries.map nameEntry) "op" value
      ↔ ∃ tag, SoleEntry entries "op" tag ∧ tag.nameTag = value := by
  rw [SoleEntry, entriesOf_map_nameEntry, List.map_eq_singleton_iff]
  constructor
  · rintro ⟨⟨name, tag⟩, hentries, hvalue⟩
    have hmem : (name, tag) ∈ entriesOf "op" entries := hentries ▸ List.mem_singleton_self _
    obtain rfl : name = "op" := of_decide_eq_true (List.mem_filter.1 hmem).2
    exact ⟨tag, hentries, (Prod.mk.inj hvalue).2⟩
  · rintro ⟨tag, hentries, rfl⟩
    exact ⟨_, hentries, rfl⟩

/-- The fields of a node are the same when its operator has been named. -/
theorem forall₂_soleEntry_map_nameEntry_iff {operator : Operator}
    {entries : List (String × Json)} {parts : List Json} :
    List.Forall₂ (SoleEntry (entries.map nameEntry)) operator.fields parts
      ↔ List.Forall₂ (SoleEntry entries) operator.fields parts :=
  forall₂_congr_of_mem fun _ hname _ =>
    soleEntry_map_nameEntry_of_ne fun hop => operator.op_notMem_fields (hop ▸ hname)

/-- **A root is a node that names its operator.** What denotes a tree below
another node denotes that tree on its own, once the operator goes by its
name. -/
theorem denotes_root_nameOperator_iff {j : Json} {p : Predicate} :
    j.nameOperator.Denotes .root p ↔ j.Denotes .child p := by
  cases j with
  | array items =>
    cases items with
    | nil => exact iff_of_false nofun nofun
    | cons tag parts =>
      rw [nameOperator]
      constructor
      · intro h
        cases h with
        | array hop hparts => exact .array (denotesOperator_root_nameTag_iff.1 hop) hparts
      · intro h
        cases h with
        | array hop hparts => exact .array (denotesOperator_root_nameTag_iff.2 hop) hparts
  | object entries =>
    rw [nameOperator]
    constructor
    · intro h
      cases h with
      | object hop htag hfields hparts =>
        obtain ⟨tag, hentry, rfl⟩ := soleEntry_map_nameEntry_op_iff.1 hop
        exact .object hentry (denotesOperator_root_nameTag_iff.1 htag)
          (forall₂_soleEntry_map_nameEntry_iff.1 hfields) hparts
    · intro h
      cases h with
      | object hop htag hfields hparts =>
        exact .object (soleEntry_map_nameEntry_op_iff.2 ⟨_, hop, rfl⟩)
          (denotesOperator_root_nameTag_iff.2 htag)
          (forall₂_soleEntry_map_nameEntry_iff.2 hfields) hparts
  | null => exact iff_of_false nofun nofun
  | bool b => exact iff_of_false nofun nofun
  | number n => exact iff_of_false nofun nofun
  | text s => exact iff_of_false nofun nofun

/-- **What denotes a tree on its own names its operator** already. -/
theorem nameOperator_of_denotes_root {j : Json} {p : Predicate} (h : j.Denotes .root p) :
    j.nameOperator = j := by
  cases h with
  | array hop => rw [nameOperator, nameTag_of_denotes_root hop]
  | @object _ entries tag _ _ _ hop htag =>
    have hsame : ∀ entry ∈ entries, nameEntry entry = entry := by
      intro entry hentry
      unfold nameEntry
      split
      · rename_i hname
        -- no entry but the one of the operator has its name
        have hmem : entry ∈ entriesOf "op" entries :=
          List.mem_filter.2 ⟨hentry, decide_eq_true hname⟩
        rw [hop, List.mem_singleton] at hmem
        rw [hmem, nameTag_of_denotes_root htag]
      · rfl
    rw [nameOperator, List.map_congr_left hsame, List.map_id']

/-! ## Composites -/

/-- **A document of a negation** with a document of its condition. -/
def negation (condition : Json) : Json :=
  .object [("condition", condition), ("op", .text Operator.negate.name)]

/-- **A document of a join** with documents of its conditions. -/
def joined (connective : Connective) (conditions : List Json) : Json :=
  .object [("conditions", .array conditions), ("op", .text (Operator.join connective).name)]

/-- **A node of one field** denotes what its part denotes with the operator. -/
theorem denotes_node_of_sole_field_iff {operator : Operator} {field : String} {part : Json}
    {place : Place} {q : Predicate} (hfields : operator.fields = [field]) :
    (object [(field, part), ("op", .text operator.name)]).Denotes place q
      ↔ PartsDenote operator [part] q := by
  have hne : field ≠ "op" := by
    rintro rfl
    exact operator.op_notMem_fields (hfields ▸ List.mem_singleton_self _)
  have hname : SoleEntry [(field, part), ("op", .text operator.name)] "op"
      (.text operator.name) := by
    simp [SoleEntry, entriesOf, hne]
  have hpart : SoleEntry [(field, part), ("op", .text operator.name)] field part := by
    simp [SoleEntry, entriesOf, hne.symm]
  constructor
  · intro h
    cases h with
    | object hop htag hentries hparts =>
      obtain rfl := hop.unique hname
      obtain rfl := htag.eq_of_name
      rw [hfields, List.forall₂_cons_left_iff] at hentries
      obtain ⟨other, _, hother, hnil, rfl⟩ := hentries
      obtain rfl := List.forall₂_nil_left_iff.1 hnil
      rwa [hpart.unique hother]
  · intro hparts
    exact .object hname (.name place operator) (hfields ▸ .cons hpart .nil) hparts

/-- **A negation denotes** the negation of what its condition denotes. -/
theorem denotes_negation_iff {condition : Json} {place : Place} {q : Predicate} :
    (negation condition).Denotes place q
      ↔ ∃ p, condition.Denotes .child p ∧ q = .negate p := by
  rw [negation, denotes_node_of_sole_field_iff rfl]
  constructor
  · intro h
    cases h with
    | negate hp => exact ⟨_, hp, rfl⟩
  · rintro ⟨p, hp, rfl⟩
    exact .negate hp

/-- **A join denotes** the join of what its conditions denote. -/
theorem denotes_joined_iff {connective : Connective} {conditions : List Json} {place : Place}
    {q : Predicate} :
    (joined connective conditions).Denotes place q
      ↔ ∃ ps, List.Forall₂ (fun j p => j.Denotes .child p) conditions ps
        ∧ q = .join connective ps := by
  rw [joined, denotes_node_of_sole_field_iff rfl]
  constructor
  · intro h
    cases h with
    | join hps => exact ⟨_, hps, rfl⟩
  · rintro ⟨ps, hps, rfl⟩
    exact .join hps

end Json

namespace Predicate

/-- A document that names its operator is decoded on its own to what it
denotes below another node, if the leaves of that mean something. -/
theorem outcome_ofCanonical_nameOperator_eq_ok_iff {j : Json} {p : Predicate} :
    (Traced.outcome (ofCanonical j.nameOperator).run).1 = .ok p
      ↔ j.Denotes .child p ∧ p.IsMeaningful := by
  rw [outcome_ofCanonical_eq_ok_iff, ofShape, ofNode_eq_ok_iff, Json.denotes_root_nameOperator_iff]

/-- **A composite is decoded as its conditions are**, once each of these names
its operator: to the negation or the join of what they are decoded to, in
their order, and not at all if one of them is not. A condition that names its
operator already is decoded on its own to the same, and any other is refused
there. -/
theorem ofCanonical_of_conditions (condition : Json) (connective : Connective)
    (conditions : List Json) :
    (∀ q, (Traced.outcome (ofCanonical (.negation condition)).run).1 = .ok q
        ↔ ∃ p, (Traced.outcome (ofCanonical condition.nameOperator).run).1 = .ok p
          ∧ q = .negate p)
      ∧ (∀ q, (Traced.outcome (ofCanonical (.joined connective conditions)).run).1 = .ok q
        ↔ ∃ ps, List.Forall₂ (fun (j : Json) (p : Predicate) =>
            (Traced.outcome (ofCanonical j.nameOperator).run).1 = .ok p) conditions ps
          ∧ q = .join connective ps)
      ∧ ∀ p, (Traced.outcome (ofCanonical condition).run).1 = .ok p
        ↔ condition.nameOperator = condition
          ∧ (Traced.outcome (ofCanonical condition.nameOperator).run).1 = .ok p := by
  refine ⟨fun q => ?_, fun q => ?_, fun p => ?_⟩
  · rw [outcome_ofCanonical_eq_ok_iff, ofShape, ofNode_eq_ok_iff, Json.denotes_negation_iff]
    simp only [outcome_ofCanonical_nameOperator_eq_ok_iff]
    constructor
    · rintro ⟨⟨p, hp, rfl⟩, hmeaning⟩
      exact ⟨p, ⟨hp, hmeaning⟩, rfl⟩
    · rintro ⟨p, ⟨hp, hmeaning⟩, rfl⟩
      exact ⟨⟨p, hp, rfl⟩, hmeaning⟩
  · rw [outcome_ofCanonical_eq_ok_iff, ofShape, ofNode_eq_ok_iff, Json.denotes_joined_iff]
    simp only [outcome_ofCanonical_nameOperator_eq_ok_iff]
    constructor
    · rintro ⟨⟨ps, hps, rfl⟩, hmeaning⟩
      exact ⟨ps, forall₂_and_right_iff.2 ⟨hps, forall_mem_leaves_join_iff.1 hmeaning⟩, rfl⟩
    · rintro ⟨ps, hps, rfl⟩
      obtain ⟨hps, hmeaning⟩ := forall₂_and_right_iff.1 hps
      exact ⟨⟨ps, hps, rfl⟩, forall_mem_leaves_join_iff.2 hmeaning⟩
  · constructor
    · intro h
      have hnamed : condition.nameOperator = condition :=
        Json.nameOperator_of_denotes_root (ofNode_eq_ok_iff.1 (outcome_ofCanonical_eq_ok_iff.1 h).1)
      exact ⟨hnamed, hnamed.symm ▸ h⟩
    · rintro ⟨hnamed, h⟩
      rwa [hnamed] at h

/-- **A composite may be decoded though its condition is not.** A comparison
that goes by the place of its operator is a condition, and on its own it is
refused. -/
theorem not_forall_ofCanonical_composite_iff :
    (¬ ∀ (condition : Json) (p : Predicate),
        (Traced.outcome (ofCanonical (.negation condition)).run).1 = .ok (.negate p)
          ↔ (Traced.outcome (ofCanonical condition).run).1 = .ok p)
      ∧ ∀ connective, ¬ ∀ conditions : List Json,
        (∃ q, (Traced.outcome (ofCanonical (.joined connective conditions)).run).1 = .ok q)
          ↔ ∀ j ∈ conditions, ∃ p, (Traced.outcome (ofCanonical j).run).1 = .ok p := by
  let condition : Json := .object [("key", .text "k"),
    ("op", .number (.integer 0 (by decide) (by decide))), ("value", .bool true)]
  let p : Predicate := .compare .equal "k" (.bool true)
  have hmeaning : p.IsMeaningful := by
    simp [p, IsMeaningful, leaves, key?, values?]
  have hrefused : ∀ q, (Traced.outcome (ofCanonical condition).run).1 ≠ .ok q := by
    intro q h
    cases (outcome_ofCanonical_eq_ok_iff.1 h).1
  refine ⟨fun h => ?_, fun connective h => ?_⟩
  · exact hrefused p ((h condition p).1 (outcome_ofCanonical_eq_ok_iff.2 ⟨rfl, hmeaning⟩))
  · have hjoined : (Traced.outcome (ofCanonical (.joined connective [condition])).run).1
        = .ok (.join connective [p]) := by
      refine outcome_ofCanonical_eq_ok_iff.2 ⟨?_, forall_mem_leaves_join_iff.2 ?_⟩
      · cases connective <;> rfl
      · rwa [List.forall_mem_singleton]
    obtain ⟨q, hq⟩ := (h [condition]).1 ⟨_, hjoined⟩ condition (List.mem_singleton_self _)
    exact hrefused q hq

end Predicate

end FilterTree
