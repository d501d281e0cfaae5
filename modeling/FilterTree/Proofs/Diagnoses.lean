import FilterTree.Proofs.Equality
import FilterTree.Proofs.TextDecoding

/-!
# Diagnoses of texts and of documents

A text is decoded while it is read, and of its faults the first to be met is
reported. If the text has a document, then that reading is interleaved with
decoding makes no difference to what is reported either, and not only to
success. What is decoded ahead of the rest is the operator of the root, and
that is also the first thing to be decoded in the document. Every other part
of the root is only read, which succeeds where there is a document. So
decoding the text comes to the same as decoding its document with the entries
as they were written, fault for fault and event for event
(`Predicate.outcome_ofText_of_toJson?`).

A caller who makes a document of the text first gets its normal form, where
entries may stand in another order, and the order decides which of several
faults comes first. Where the names of every object ascend, the document is in
normal form as it was written (`Json.normalize_of_namesAscend`). Then both
ways give one diagnosis (`Predicate.ofText_diagnoses_like_ofCanonical`).
-/

namespace FilterTree

namespace Json

/-- **Ascending names**: in every object of the document each name comes after
those before it, and so none comes twice. -/
inductive NamesAscend : Json → Prop
  /-- The null has no names. -/
  | null : NamesAscend .null
  /-- A boolean has no names. -/
  | bool (b : Bool) : NamesAscend (.bool b)
  /-- A number has no names. -/
  | number (n : Number) : NamesAscend (.number n)
  /-- A string has no names. -/
  | text (s : String) : NamesAscend (.text s)
  /-- An array of such documents. -/
  | array {items : List Json} (items_ascend : ∀ j ∈ items, NamesAscend j) :
    NamesAscend (.array items)
  /-- An object of ascending names and such documents. -/
  | object {entries : List (String × Json)} (names : (entries.map Prod.fst).Pairwise (· < ·))
    (values_ascend : ∀ entry ∈ entries, NamesAscend entry.2) : NamesAscend (.object entries)

/-- **A document with ascending names** is in normal form. -/
theorem normalize_of_namesAscend {j : Json} (h : j.NamesAscend) : j.normalize = j := by
  induction h with
  | array _ ih => rw [normalize, normalizeItems_eq_map, List.map_congr_left ih, List.map_id']
  | @object entries names _ ih =>
    have hsame : ∀ entry ∈ entries, (entry.1, entry.2.normalize) = entry := by
      intro entry hentry
      rw [ih entry hentry]
    rw [normalize, normalizeEntries_of_pairwise names, List.map_congr_left hsame, List.map_id']
  | null => rfl
  | bool b => rfl
  | number n => rfl
  | text s => rfl

end Json

namespace Predicate

/-! ## Faults of the root -/

/-- **The operator at the root of a text** is decoded like that of its
document. -/
theorem rootOperator_of_toJson? {o : Outline} {levels : Nat} {j : Json}
    (h : o.toJson? levels = some j) :
    rootOperator o = asData (Operator.ofHead .root j.head >>= fun _ => .ok j) := by
  have hhead := Outline.head?_of_toJson? h
  cases hop : Operator.ofHead .root j.head with
  | error fault =>
    rw [rootOperator, Outline.head, hhead]
    show asData (Operator.ofHead .root j.head) >>= _ = _
    rw [hop]
    rfl
  | ok operator =>
    -- the reader gives the name of the operator, and that is all there is in the document
    rw [ofHead_root_eq_ok_iff.1 hop] at hhead
    have hname : j = .text operator.name :=
      Option.some.inj (h.symm.trans (Outline.toJson?_eq_text_iff.2 hhead))
    exact (rootOperator_eq_ok_iff levels).2 ⟨h, operator, hname⟩

/-- A second operator among the entries of a root is refused. -/
theorem rootEntries_second_op {pieces : List Piece} {value : Outline}
    {rest : List (List Piece × Outline)} (h : textOf? pieces = some "op") :
    rootEntries true ((pieces, value) :: rest) = .error (.data (.duplicateField "op")) := by
  rw [rootEntries, h]
  rfl

/-- The first operator among the entries of a root is decoded before the rest
is read. -/
theorem rootEntries_first_op {pieces : List Piece} {value : Outline}
    {rest : List (List Piece × Outline)} (h : textOf? pieces = some "op") :
    rootEntries false ((pieces, value) :: rest)
      = rootOperator value >>= fun operator =>
          rootEntries true rest >>= fun es => .ok (("op", operator) :: es) := by
  rw [rootEntries, h]
  rfl

theorem rootEntries_cons_of_ne {pieces : List Piece} {value : Outline}
    {rest : List (List Piece × Outline)} {name : String} (h : textOf? pieces = some name)
    (hne : name ≠ "op") (found : Bool) :
    rootEntries found ((pieces, value) :: rest)
      = rootPart value >>= fun j =>
          rootEntries found rest >>= fun es => .ok ((name, j) :: es) := by
  rw [rootEntries, h]
  exact if_neg hne

/-- An entry in front of others changes neither that these are read nor what
fault they have. -/
theorem entry_bind_or_fault {entry : String × Json} {es : List (String × Json)}
    {read : Except ReadFault (List (String × Json))} {IsFault : DecodeFault → Prop}
    (h : read = .ok es ∨ ∃ fault, read = .error (.data fault) ∧ IsFault fault) :
    (read >>= fun es => .ok (entry :: es)) = .ok (entry :: es)
      ∨ ∃ fault, (read >>= fun es => .ok (entry :: es)) = .error (.data fault)
        ∧ IsFault fault := by
  rcases h with rfl | ⟨fault, rfl, hfault⟩
  · exact Or.inl rfl
  · exact Or.inr ⟨fault, rfl, hfault⟩

/-- **The entries of a root** are read to their documents, unless the operator
among these is at fault. Then the reader has the same fault. -/
theorem rootEntries_of_entriesToJson? {entries : List (List Piece × Outline)}
    {es : List (String × Json)} (found : Option Operator)
    (h : Outline.entriesToJson? entries levelsBelowRoot = some es) :
    rootEntries found.isSome entries = .ok es
      ∨ ∃ fault, rootEntries found.isSome entries = .error (.data fault)
        ∧ operatorAmong .root found es = .error fault := by
  induction entries generalizing found es with
  | nil =>
    obtain rfl := Option.some.inj h
    exact Or.inl rfl
  | cons entry rest ih =>
    obtain ⟨pieces, value⟩ := entry
    obtain ⟨name, j, others, hname, hj, hothers, rfl⟩ :=
      Outline.entriesToJson?_cons_eq_some_iff.1 h
    by_cases hop : name = "op"
    · subst hop
      cases found with
      | some met => exact Or.inr ⟨_, rootEntries_second_op hname, rfl⟩
      | none =>
        rw [Option.isSome_none, rootEntries_first_op hname, rootOperator_of_toJson? hj,
          operatorAmong, if_pos rfl]
        cases Operator.ofHead .root j.head with
        | error fault => exact Or.inr ⟨fault, rfl, rfl⟩
        | ok operator => exact entry_bind_or_fault (ih (some operator) hothers)
    · have hpart : rootPart value = .ok j := orMalformed_eq_ok_iff.2 hj
      rw [rootEntries_cons_of_ne hname hop, hpart, operatorAmong, if_neg hop]
      exact entry_bind_or_fault (ih found hothers)

/-- A single value is refused for its head, in a text as in a document. -/
theorem ofOutline_of_single {o : Outline} {j : Json} (hhead : o.head? = some j.head)
    (hread : rootDocument o = o.head >>= fun head => .error (.data (head.unexpected .node)))
    (hshape : ofShape j = .error (j.head.unexpected .node)) :
    ofOutline o = asData (ofShape j) := by
  rw [ofOutline, hread, Outline.head, hhead, hshape]
  rfl

/-- **The tree of an outline**, or its fault, is that of its document. -/
theorem ofOutline_of_toJson? {o : Outline} {j : Json} (h : o.toJson? maxLevels = some j) :
    ofOutline o = asData (ofShape j) := by
  have hhead := Outline.head?_of_toJson? h
  cases o with
  | object entries closed =>
    obtain ⟨below, es, hbelow, hes, rfl, rfl⟩ := Outline.toJson?_object_eq_some_iff.1 h
    obtain rfl : levelsBelowRoot = below := Nat.succ.inj hbelow
    rw [ofOutline, rootDocument]
    rcases rootEntries_of_entriesToJson? none hes with hread | ⟨fault, hread, hfault⟩
    · rw [← Option.isSome_none, hread]
      rfl
    · rw [← Option.isSome_none, hread, ofShape, ofNode, hfault]
      rfl
  | array items closed =>
    obtain ⟨below, js, hbelow, hjs, rfl, rfl⟩ := Outline.toJson?_array_eq_some_iff.1 h
    obtain rfl : levelsBelowRoot = below := Nat.succ.inj hbelow
    cases items with
    | nil =>
      obtain rfl := Option.some.inj hjs
      rfl
    | cons tag parts =>
      obtain ⟨j, others, hj, hothers, rfl⟩ := Outline.itemsToJson?_cons_eq_some_iff.1 hjs
      rw [ofOutline, rootDocument, rootOperator_of_toJson? hj, rootParts_eq_ok_iff.2 hothers]
      cases hop : Operator.ofHead .root j.head with
      | error fault =>
        rw [ofShape, ofNode, hop]
        rfl
      | ok operator => rfl
  | torn => cases h
  | null =>
    obtain rfl := Option.some.inj h
    exact ofOutline_of_single hhead rfl rfl
  | bool b =>
    obtain rfl := Option.some.inj h
    exact ofOutline_of_single hhead rfl rfl
  | numeral n =>
    obtain ⟨number, -, rfl⟩ := Option.map_eq_some_iff.1 h
    exact ofOutline_of_single hhead rfl rfl
  | text pieces =>
    obtain ⟨s, -, rfl⟩ := Option.map_eq_some_iff.1 h
    exact ofOutline_of_single hhead rfl rfl

/-! ## One diagnosis -/

/-- **Decoding a text that has a document** comes to what decoding that document
comes to, with the entries as they were written: the same tree or the same
fault, and the same events. -/
theorem outcome_ofText_of_toJson? {text : String} {j : Json}
    (h : (Reading.ofText text).toJson? = some j) :
    (ofText text).outcome = (asData (decode j).outcome.1, (decode j).outcome.2) := by
  obtain ⟨htrailing, hj⟩ := Reading.toJson?_eq_some_iff.1 h
  have houtline := ofOutline_of_toJson? hj
  cases hshape : ofShape j with
  | error fault =>
    rw [hshape] at houtline
    rw [outcome_ofText_of_error houtline]
    simp only [decode, hshape]
    rfl
  | ok shape =>
    rw [hshape] at houtline
    rcases shape.isMeaningful_or_objection with hmeaning | ⟨failure, hobjection⟩
    · rw [outcome_ofText_of_isMeaningful houtline hmeaning, htrailing]
      simp only [decode, hshape, checked_of_isMeaningful hmeaning]
      rfl
    · rw [outcome_ofText_of_objection houtline hobjection]
      simp only [decode, hshape, checked_of_objection hobjection]
      rfl

/-- **A text and its document are diagnosed alike** where the names of every
object ascend in the text. The text is at fault with a message exactly when
its document is refused as undecodable with that message, the events are the
same, and no fault is one of the text as such. -/
theorem ofText_diagnoses_like_ofCanonical {text : String} {j : Json}
    (hread : Json.ofText? text = some j)
    (hascend : ∀ i, (Reading.ofText text).toJson? = some i → i.NamesAscend) :
    (∀ message, (∃ fault, (ofText text).outcome.1 = .error (.data fault) ∧ fault.message = message)
        ↔ (Traced.outcome (ofCanonical j).run).1 = .error (.undecodable message))
      ∧ (ofText text).outcome.1 ≠ .error .malformed
      ∧ (ofText text).outcome.2 = (Traced.outcome (ofCanonical j).run).2 := by
  obtain ⟨i, hi, rfl⟩ := Option.map_eq_some_iff.1 hread
  rw [Json.normalize_of_namesAscend (hascend i hi), outcome_ofText_of_toJson? hi,
    outcome_ofCanonical]
  refine ⟨fun message => ?_, fun hmalformed => ?_, rfl⟩
  · simp only [asData, mapError_eq_error_iff, ReadFault.data.injEq, Failure.undecodable.injEq,
      exists_eq_right]
  · obtain ⟨fault, -, hfault⟩ := mapError_eq_error_iff.1 hmalformed
    cases hfault

/-- In a disjunction with three faults, the first to be met is that an array
has too few elements. The number that is no place of an operator comes after
it, and the empty key and the empty list before it are not looked at. -/
theorem ofText_diagnoses_like_ofCanonical_of_three_faults :
    let text := "\x7b\"conditions\": [[1, \"\", []], [\"EQ\", \"k\"], [7]], \"op\": \"OR\"\x7d"
    let message := "invalid length 1, expected struct variant ExprWire::Eq with 2 elements"
    (∀ i, (Reading.ofText text).toJson? = some i → i.NamesAscend)
      ∧ (∃ fault, (ofText text).outcome = (.error (.data fault), []) ∧ fault.message = message)
      ∧ ∃ j, Json.ofText? text = some j
        ∧ Traced.outcome (ofCanonical j).run = (.error (.undecodable message), []) := by
  intro text message
  let one : Number := .integer 1 (by decide) (by decide)
  let seven : Number := .integer 7 (by decide) (by decide)
  let j : Json := .object [
    ("conditions", .array [.array [.number one, .text "", .array []],
      .array [.text "EQ", .text "k"], .array [.number seven]]),
    ("op", .text "OR")]
  have hdocument : (Reading.ofText text).toJson? = some j := by
    rw [Reading.ofText]
    simp only [text, String.reduceToList]
    rfl
  have hascend : ∀ i, (Reading.ofText text).toJson? = some i → i.NamesAscend := by
    intro i hi
    obtain rfl := Option.some.inj (hdocument.symm.trans hi)
    refine .object (by decide) ?_
    simp only [List.forall_mem_cons]
    refine ⟨.array ?_, .text _, List.forall_mem_nil _⟩
    simp only [List.forall_mem_cons]
    refine ⟨.array ?_, .array ?_, .array ?_, List.forall_mem_nil _⟩
    · simp only [List.forall_mem_cons]
      exact ⟨.number _, .text _, .array (List.forall_mem_nil _), List.forall_mem_nil _⟩
    · simp only [List.forall_mem_cons]
      exact ⟨.text _, .text _, List.forall_mem_nil _⟩
    · exact List.forall_mem_singleton.2 (.number _)
  have hread : Json.ofText? text = some j := by
    rw [Json.ofText?, hdocument, Option.map_some,
      Json.normalize_of_namesAscend (hascend j hdocument)]
  have hshape : ofShape j = .error (.wrongLength 1 (.fieldsOf (.compare .equal))) := rfl
  have hwords : (DecodeFault.wrongLength 1 (.fieldsOf (.compare .equal))).message = message := by
    decide +kernel
  have hrefused : Traced.outcome (ofCanonical j).run = (.error (.undecodable message), []) := by
    rw [outcome_ofCanonical_of_error hshape, hwords]
  obtain ⟨hmessage, -, hevents⟩ := ofText_diagnoses_like_ofCanonical hread hascend
  obtain ⟨fault, hfault, hwording⟩ := (hmessage message).2 (congrArg Prod.fst hrefused)
  rw [hrefused] at hevents
  exact ⟨hascend, ⟨fault, Prod.ext hfault hevents, hwording⟩, j, hread, hrefused⟩

end Predicate

end FilterTree
