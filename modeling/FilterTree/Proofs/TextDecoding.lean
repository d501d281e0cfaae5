import FilterTree.Predicate.Read
import FilterTree.Proofs.Outlines
import FilterTree.Proofs.RepeatedNames

/-!
# Decoding texts and decoding documents

A text is decoded while it is read, and the operator of its root is decoded
before the rest has been looked at. That decides which fault is met first,
and nothing else: decoding a text succeeds with a tree exactly when the text
has a document, all entries as written, that has the shape of the tree
(`Predicate.ofOutline_eq_ok_iff`).

A caller who makes a document of the text first gets its normal form. So
the two ways differ where a name comes twice. What the text is decoded to
the normal form is decoded to as well, and if no object in the text repeats
a name then also the other way round
(`Predicate.ofText_agrees_with_ofCanonical`).
-/

namespace FilterTree

/-! ## Texts with a document -/

/-- **A text has a document** when nothing trails its value and the outline of
that has the document. -/
theorem Reading.toJson?_eq_some_iff {r : Reading} {j : Json} :
    r.toJson? = some j ↔ r.trailing = false ∧ r.outline.toJson? maxLevels = some j := by
  rw [toJson?]
  cases r.trailing <;> simp

theorem Outline.head_of_toJson? {o : Outline} {levels : Nat} {j : Json}
    (h : o.toJson? levels = some j) : o.head = .ok j.head := by
  rw [head, head?_of_toJson? h]
  rfl

/-- **A single value** is decoded from the head of its document. -/
theorem Outline.head_bind_of_toJson? {α : Type} {o : Outline} {levels : Nat} {j : Json}
    (h : o.toJson? levels = some j) (decode : Head → Except DecodeFault α) :
    (o.head >>= fun head => asData (decode head)) = asData (decode j.head) := by
  rw [head_of_toJson? h]
  rfl

namespace Predicate

open Json (SoleEntry entriesOf)

/-- **The operator of a root** goes by its name. -/
theorem ofHead_root_eq_ok_iff {head : Head} {operator : Operator} :
    Operator.ofHead .root head = .ok operator ↔ head = .text operator.name := by
  constructor
  · intro h
    cases head with
    | text s =>
      have hdenotes : (Json.text s).DenotesOperator .root operator := Json.ofHead_eq_ok_iff.1 h
      cases hdenotes
      rfl
    | number n => cases n <;> exact absurd h nofun
    | null => exact absurd h nofun
    | bool b => exact absurd h nofun
    | array => exact absurd h nofun
    | object => exact absurd h nofun
  · rintro rfl
    simp only [Operator.ofHead, Operator.ofName?_name]

/-- **The operator at the root of a text** is its document, if that is the
name of an operator. -/
theorem rootOperator_eq_ok_iff (levels : Nat) {o : Outline} {j : Json} :
    rootOperator o = .ok j
      ↔ o.toJson? levels = some j ∧ ∃ operator : Operator, j = .text operator.name := by
  simp only [rootOperator, Outline.head, bind_eq_ok_iff, orMalformed_eq_ok_iff, asData_eq_ok_iff,
    ofHead_root_eq_ok_iff, Except.ok.injEq]
  constructor
  · rintro ⟨_, hhead, operator, rfl, rfl⟩
    exact ⟨Outline.toJson?_eq_text_iff.2 hhead, operator, rfl⟩
  · rintro ⟨hj, operator, rfl⟩
    exact ⟨_, Outline.toJson?_eq_text_iff.1 hj, operator, rfl, rfl⟩

/-- **Fitting entries** of a root: no entry is named for the operator, or
only one, and that is the name of an operator. If one has been met before,
there is none. -/
def OperatorFits (found : Bool) (entries : List (String × Json)) : Prop :=
  entriesOf "op" entries = []
    ∨ found = false ∧ ∃ operator : Operator, SoleEntry entries "op" (.text operator.name)

theorem operatorFits_cons_of_ne {found : Bool} {name : String} (h : name ≠ "op") (value : Json)
    (rest : List (String × Json)) :
    OperatorFits found ((name, value) :: rest) ↔ OperatorFits found rest := by
  unfold OperatorFits SoleEntry
  rw [Json.entriesOf_cons_of_ne h]

theorem operatorFits_cons_op {found : Bool} {value : Json} {rest : List (String × Json)} :
    OperatorFits found (("op", value) :: rest)
      ↔ found = false ∧ (∃ operator : Operator, value = .text operator.name)
        ∧ OperatorFits true rest := by
  unfold OperatorFits SoleEntry
  rw [Json.entriesOf_cons_self]
  simp

/-- **The entries of a root** are read to their documents, if those fit. -/
theorem rootEntries_eq_ok_iff {found : Bool} {entries : List (List Piece × Outline)}
    {es : List (String × Json)} :
    rootEntries found entries = .ok es
      ↔ Outline.entriesToJson? entries levelsBelowRoot = some es ∧ OperatorFits found es := by
  induction entries generalizing found es with
  | nil =>
    rw [rootEntries, Outline.entriesToJson?, Except.ok.injEq, Option.some.injEq]
    refine iff_self_and.2 ?_
    rintro rfl
    exact Or.inl rfl
  | cons entry rest ih =>
    obtain ⟨pieces, value⟩ := entry
    rw [rootEntries, Outline.entriesToJson?_cons_eq_some_iff, bind_eq_ok_iff]
    simp only [orMalformed_eq_ok_iff]
    constructor
    · rintro ⟨name, hname, h⟩
      -- the operator is read by its own function, everything else as a part
      by_cases hop : name = "op"
      · subst hop
        cases found with
        | true => exact absurd h (by simp)
        | false =>
          simp only [if_true, Bool.false_eq_true, if_false, bind_eq_ok_iff, ih,
            rootOperator_eq_ok_iff levelsBelowRoot, Except.ok.injEq] at h
          obtain ⟨j, ⟨hj, hoperator⟩, others, ⟨hothers, hfits⟩, rfl⟩ := h
          exact ⟨⟨"op", j, others, hname, hj, hothers, rfl⟩,
            operatorFits_cons_op.2 ⟨rfl, hoperator, hfits⟩⟩
      · simp only [if_neg hop, bind_eq_ok_iff, rootPart, orMalformed_eq_ok_iff, ih,
          Except.ok.injEq] at h
        obtain ⟨j, hj, others, ⟨hothers, hfits⟩, rfl⟩ := h
        exact ⟨⟨name, j, others, hname, hj, hothers, rfl⟩, (operatorFits_cons_of_ne hop ..).2 hfits⟩
    · rintro ⟨⟨name, j, others, hname, hj, hothers, rfl⟩, hfits⟩
      refine ⟨name, hname, ?_⟩
      by_cases hop : name = "op"
      · subst hop
        obtain ⟨rfl, hoperator, hfits⟩ := operatorFits_cons_op.1 hfits
        simp only [if_true, Bool.false_eq_true, if_false, bind_eq_ok_iff, ih,
          rootOperator_eq_ok_iff levelsBelowRoot, Except.ok.injEq]
        exact ⟨j, ⟨hj, hoperator⟩, others, ⟨hothers, hfits⟩, rfl⟩
      · simp only [if_neg hop, bind_eq_ok_iff, rootPart, orMalformed_eq_ok_iff, ih, Except.ok.injEq]
        exact ⟨j, hj, others, ⟨hothers, (operatorFits_cons_of_ne hop ..).1 hfits⟩, rfl⟩

theorem rootParts_eq_ok_iff {items : List Outline} {js : List Json} :
    rootParts items = .ok js ↔ Outline.itemsToJson? items levelsBelowRoot = some js := by
  induction items generalizing js with
  | nil => rw [rootParts, Outline.itemsToJson?, Except.ok.injEq, Option.some.injEq]
  | cons item rest ih =>
    rw [rootParts, Outline.itemsToJson?_cons_eq_some_iff]
    simp only [bind_eq_ok_iff, rootPart, orMalformed_eq_ok_iff, ih, Except.ok.injEq]
    constructor
    · rintro ⟨j, hj, others, hothers, rfl⟩
      exact ⟨j, others, hj, hothers, rfl⟩
    · rintro ⟨j, others, hj, hothers, rfl⟩
      exact ⟨j, hj, others, hothers, rfl⟩

/-- **A fitting root**: an object whose entries fit, or an array that starts
with the name of an operator if it starts with anything. -/
def RootFits : Json → Prop
  | .object entries => OperatorFits false entries
  | .array items => ∀ tag ∈ items.head?, ∃ operator : Operator, tag = .text operator.name
  | _ => False

/-- A single value is no root, neither when it is read nor as a document. -/
theorem rootDocument_eq_ok_iff_of_single {o : Outline} {j : Json}
    (hread : rootDocument o = o.head >>= fun head => .error (.data (head.unexpected .node)))
    (hfits : o.toJson? maxLevels = some j → ¬ RootFits j) :
    rootDocument o = .ok j ↔ o.toJson? maxLevels = some j ∧ RootFits j := by
  rw [hread, bind_eq_ok_iff]
  refine iff_of_false ?_ fun h => hfits h.1 h.2
  rintro ⟨head, -, h⟩
  exact absurd h nofun

/-- **A root is read** to its document, if that fits. -/
theorem rootDocument_eq_ok_iff {o : Outline} {j : Json} :
    rootDocument o = .ok j ↔ o.toJson? maxLevels = some j ∧ RootFits j := by
  cases o with
  | object entries closed =>
    rw [rootDocument, Outline.toJson?_object_eq_some_iff]
    simp only [bind_eq_ok_iff, rootEntries_eq_ok_iff, closing_eq_ok_iff, Except.ok.injEq]
    constructor
    · rintro ⟨es, ⟨hes, hfits⟩, _, hclosed, rfl⟩
      exact ⟨⟨levelsBelowRoot, es, rfl, hes, hclosed, rfl⟩, hfits⟩
    · rintro ⟨⟨below, es, hbelow, hes, hclosed, rfl⟩, hfits⟩
      obtain rfl : levelsBelowRoot = below := Nat.succ.inj hbelow
      exact ⟨es, ⟨hes, hfits⟩, (), hclosed, rfl⟩
  | array items closed =>
    rw [Outline.toJson?_array_eq_some_iff]
    cases items with
    | nil =>
      rw [rootDocument]
      simp only [bind_eq_ok_iff, closing_eq_ok_iff, Except.ok.injEq, Outline.itemsToJson?,
        Option.some.injEq]
      constructor
      · rintro ⟨_, hclosed, rfl⟩
        refine ⟨⟨levelsBelowRoot, [], rfl, rfl, hclosed, rfl⟩, ?_⟩
        rintro _ ⟨⟩
      · rintro ⟨⟨_, _, _, rfl, hclosed, rfl⟩, -⟩
        exact ⟨(), hclosed, rfl⟩
    | cons tag parts =>
      rw [rootDocument]
      simp only [bind_eq_ok_iff, rootOperator_eq_ok_iff levelsBelowRoot, rootParts_eq_ok_iff,
        closing_eq_ok_iff, Except.ok.injEq, Outline.itemsToJson?_cons_eq_some_iff]
      constructor
      · rintro ⟨i, ⟨hi, operator, rfl⟩, js, hjs, _, hclosed, rfl⟩
        refine ⟨⟨levelsBelowRoot, _, rfl, ⟨_, js, hi, hjs, rfl⟩, hclosed, rfl⟩, ?_⟩
        rintro _ ⟨rfl⟩
        exact ⟨operator, rfl⟩
      · rintro ⟨⟨below, _, hbelow, ⟨i, js, hi, hjs, rfl⟩, hclosed, rfl⟩, hfits⟩
        obtain rfl : levelsBelowRoot = below := Nat.succ.inj hbelow
        exact ⟨i, ⟨hi, hfits i rfl⟩, js, hjs, (), hclosed, rfl⟩
  | torn => exact rootDocument_eq_ok_iff_of_single rfl (by rintro ⟨⟩)
  | null => exact rootDocument_eq_ok_iff_of_single rfl (by rintro ⟨rfl⟩ h; exact h)
  | bool b => exact rootDocument_eq_ok_iff_of_single rfl (by rintro ⟨rfl⟩ h; exact h)
  | numeral n =>
    refine rootDocument_eq_ok_iff_of_single rfl fun h => ?_
    obtain ⟨number, -, rfl⟩ := Option.map_eq_some_iff.1 h
    exact id
  | text pieces =>
    refine rootDocument_eq_ok_iff_of_single rfl fun h => ?_
    obtain ⟨s, -, rfl⟩ := Option.map_eq_some_iff.1 h
    exact id

/-- **The root of a tree fits.** -/
theorem rootFits_of_denotes {j : Json} {p : Predicate} (h : j.Denotes .root p) : RootFits j := by
  cases h with
  | object hop htag =>
    cases htag with
    | name => exact Or.inr ⟨rfl, _, hop⟩
  | array htag =>
    cases htag with
    | name =>
      rintro _ ⟨rfl⟩
      exact ⟨_, rfl⟩

/-- **The tree of an outline** is that of its document. That the operator is
decoded ahead of the rest makes no difference to success. -/
theorem ofOutline_eq_ok_iff {o : Outline} {p : Predicate} :
    ofOutline o = .ok p ↔ ∃ j, o.toJson? maxLevels = some j ∧ ofShape j = .ok p := by
  simp only [ofOutline, bind_eq_ok_iff, rootDocument_eq_ok_iff, asData_eq_ok_iff]
  constructor
  · rintro ⟨j, ⟨hj, -⟩, hp⟩
    exact ⟨j, hj, hp⟩
  · rintro ⟨j, hj, hp⟩
    exact ⟨j, ⟨hj, rootFits_of_denotes (ofNode_eq_ok_iff.1 hp)⟩, hp⟩

/-- **Decoding a text succeeds** when it has a document that denotes a tree
whose leaves mean something. -/
theorem outcome_ofText_eq_ok_iff_denotes {text : String} {p : Predicate} :
    (ofText text).outcome.1 = .ok p
      ↔ ∃ j, (Reading.ofText text).toJson? = some j ∧ j.Denotes .root p ∧ p.IsMeaningful := by
  rw [outcome_ofText_eq_ok_iff, ofOutline_eq_ok_iff, Reading.toJson?]
  cases (Reading.ofText text).trailing with
  | true => simp
  | false =>
    simp only [ofShape, ofNode_eq_ok_iff, Bool.false_eq_true, if_false, and_true]
    constructor
    · rintro ⟨⟨j, hj, hp⟩, hmeaning⟩
      exact ⟨j, hj, hp, hmeaning⟩
    · rintro ⟨j, hj, hp, hmeaning⟩
      exact ⟨⟨j, hj, hp⟩, hmeaning⟩

/-- **Decoding the document of a text succeeds** when the normal form denotes
a tree whose leaves mean something. -/
theorem ofText?_ofCanonical_eq_ok_iff_denotes {text : String} {p : Predicate} :
    (∃ j, Json.ofText? text = some j ∧ (Traced.outcome (ofCanonical j).run).1 = .ok p)
      ↔ ∃ j, (Reading.ofText text).toJson? = some j ∧ j.normalize.Denotes .root p
        ∧ p.IsMeaningful := by
  simp only [Json.ofText?, Option.map_eq_some_iff, outcome_ofCanonical_eq_ok_iff, ofShape,
    ofNode_eq_ok_iff]
  constructor
  · rintro ⟨_, ⟨j, hj, rfl⟩, h⟩
    exact ⟨j, hj, h⟩
  · rintro ⟨j, hj, h⟩
    exact ⟨_, ⟨j, hj, rfl⟩, h⟩

/-- **The two ways to decode a text agree.** A tree that a text is decoded to
is also what its document is decoded to. The converse holds if no object in
the text repeats a name. -/
theorem ofText_agrees_with_ofCanonical (text : String) (p : Predicate) :
    ((ofText text).outcome.1 = .ok p →
        ∃ j, Json.ofText? text = some j ∧ (Traced.outcome (ofCanonical j).run).1 = .ok p)
      ∧ ((∀ j, (Reading.ofText text).toJson? = some j → j.NamesOnce) →
        ((ofText text).outcome.1 = .ok p
          ↔ ∃ j, Json.ofText? text = some j
            ∧ (Traced.outcome (ofCanonical j).run).1 = .ok p)) := by
  rw [outcome_ofText_eq_ok_iff_denotes, ofText?_ofCanonical_eq_ok_iff_denotes]
  have hforth : (∃ j, (Reading.ofText text).toJson? = some j ∧ j.Denotes .root p
        ∧ p.IsMeaningful) →
      ∃ j, (Reading.ofText text).toJson? = some j ∧ j.normalize.Denotes .root p
        ∧ p.IsMeaningful := by
    rintro ⟨j, hj, hp, hmeaning⟩
    exact ⟨j, hj, j.readsAs_normalize.node .root p hp, hmeaning⟩
  refine ⟨hforth, fun honce => ⟨hforth, ?_⟩⟩
  rintro ⟨j, hj, hp, hmeaning⟩
  exact ⟨j, hj, (Json.normalize_readsAs (honce j hj)).node .root p hp, hmeaning⟩

/-- A negation whose operator comes last, after blanks and an entry that says
nothing, is decoded in both ways. -/
theorem ofText_agrees_with_ofCanonical_of_late_operator :
    let text := "\x7b\"x\": [\x7b\x7d], \"condition\": [\"EQ\", \"k\", true], \"op\": \"NOT\"\x7d"
    let p : Predicate := .negate (.compare .equal "k" (.bool true))
    (∀ j, (Reading.ofText text).toJson? = some j → j.NamesOnce)
      ∧ (ofText text).outcome.1 = .ok p
      ∧ ∃ j, Json.ofText? text = some j ∧ (Traced.outcome (ofCanonical j).run).1 = .ok p := by
  intro text p
  have hdocument : (Reading.ofText text).toJson? = some (.object [
      ("x", .array [.object []]),
      ("condition", .array [.text "EQ", .text "k", .bool true]),
      ("op", .text "NOT")]) := by
    rw [Reading.ofText]
    simp only [text, String.reduceToList]
    cbv
  have honce : ∀ j, (Reading.ofText text).toJson? = some j → j.NamesOnce := by
    intro j hj
    obtain rfl := Option.some.inj (hdocument.symm.trans hj)
    refine .object (by decide) ?_
    simp only [List.forall_mem_cons]
    refine ⟨.array ?_, .array ?_, .text _, List.forall_mem_nil _⟩
    · simp only [List.forall_mem_cons]
      exact ⟨.object List.nodup_nil (List.forall_mem_nil _), List.forall_mem_nil _⟩
    · simp only [List.forall_mem_cons]
      exact ⟨.text _, .text _, .bool _, List.forall_mem_nil _⟩
  have hok : (ofText text).outcome.1 = .ok p := by
    refine outcome_ofText_eq_ok_iff_denotes.2 ⟨_, hdocument, ofNode_eq_ok_iff.1 ?_, ?_⟩
    · rfl
    · simp [p, IsMeaningful, leaves, key?, values?]
  exact ⟨honce, hok, ((ofText_agrees_with_ofCanonical text p).2 honce).1 hok⟩

end Predicate

end FilterTree
