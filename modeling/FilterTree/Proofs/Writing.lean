import FilterTree.Proofs.Documents
import FilterTree.Proofs.NumberTexts

/-!
# Written documents

The reader takes the text that is written for a document to an outline,
which is made from those of the document's parts. `Json.ReadTo` says what it
takes for that: that the reader arrives at the outline, whatever the context
and whatever follows. Every document has such an outline
(`Json.exists_readTo`).

The outline has the document again, if that is legible and does not nest too
deep (`Json.WrittenAs`). The number of levels is exact. `Json.nesting` counts
the arrays and objects that are open at the deepest point of a document. If
there are fewer levels than that, then the outline has no document
(`Json.Legible.toJson?_ofText_toText`).
-/

namespace FilterTree

/-- Two things that are each there given enough levels are there together
given enough for both. -/
theorem bind_bind_of_enough {α β γ : Type} {a b levels : Nat} {x : Option α} {y : Option β}
    (f : α → β → γ) :
    ((if a ≤ levels then x else none) >>= fun x =>
        (if b ≤ levels then y else none) >>= fun y => some (f x y))
      = if max a b ≤ levels then x >>= fun x => y >>= fun y => some (f x y) else none := by
  by_cases ha : a ≤ levels
  · by_cases hb : b ≤ levels
    · rw [if_pos ha, if_pos hb, if_pos (Nat.max_le.2 ⟨ha, hb⟩)]
    · rw [if_pos ha, if_neg hb, if_neg fun hmax => hb (Nat.max_le.1 hmax).2]
      cases x <;> rfl
  · rw [if_neg ha, if_neg fun hmax => ha (Nat.max_le.1 hmax).1]
    rfl

/-- What is there given enough levels takes one more level as an array or an
object. -/
theorem bind_of_enough {α β : Type} {a below : Nat} {x : Option α} (f : α → β) :
    ((if a ≤ below then x else none) >>= fun x => some (f x))
      = if 1 + a ≤ below + 1 then x >>= fun x => some (f x) else none := by
  by_cases ha : a ≤ below
  · rw [if_pos ha, if_pos (by omega)]
  · rw [if_neg ha, if_neg (by omega)]
    rfl

namespace Json

mutual

/-- **The nesting** of a document: how many arrays and objects are open at
its deepest point. -/
def nesting : Json → Nat
  | .null => 0
  | .bool _ => 0
  | .number _ => 0
  | .text _ => 0
  | .array items => 1 + maxNesting items
  | .object entries => 1 + maxNestingOfValues entries

/-- The greatest nesting of several documents, zero if there are none. -/
def maxNesting : List Json → Nat
  | [] => 0
  | item :: rest => max (nesting item) (maxNesting rest)

/-- The greatest nesting of the values of entries. -/
def maxNestingOfValues : List (String × Json) → Nat
  | [] => 0
  | (_, value) :: rest => max (nesting value) (maxNestingOfValues rest)

end

/-! ## Texts -/

/-- **A text that ends a document** it follows: after a number it starts with
a delimiter. After anything else it may be any text. -/
def EndsBefore (j : Json) (rest : List Char) : Prop :=
  ∀ n, j = .number n → ∃ c cs, rest = c :: cs ∧ IsDelimiter c

/-- **The outline that a written document is read to.** -/
structure ReadTo (j : Json) (o : Outline) : Prop where
  /-- The reader completes the outline, wherever the text stands. -/
  run : ∀ context rest, j.EndsBefore rest →
    (Scan.awaiting context).run (j.write rest) = (Scan.complete o context).run rest
  /-- The text on its own is read to the outline. -/
  reading : ((Scan.awaiting []).run (j.write [])).reading = ⟨o, false⟩

/-- **A written entry** of an object is read to an entry of an outline. -/
structure EntryReadTo (entry : String × Json) (outline : List Piece × Outline) : Prop where
  /-- The pieces of the name. -/
  name : outline.1 = piecesOf entry.1
  /-- The outline of the value. -/
  value : entry.2.ReadTo outline.2

/-- What is read to its outline whatever follows is also read to it when
nothing follows. -/
theorem ReadTo.of_run {j : Json} {o : Outline}
    (run : ∀ context rest,
      (Scan.awaiting context).run (j.write rest) = (Scan.complete o context).run rest) :
    j.ReadTo o where
  run context rest _ := run context rest
  reading := by
    rw [run [] []]
    rfl

theorem readTo_text (s : String) : (Json.text s).ReadTo (.text (piecesOf s)) :=
  ReadTo.of_run fun context rest => by rw [write, Scan.run_writeText_awaiting]

theorem readTo_number {n : Number} {m : Numeral}
    (h : Numeral.ofChars? (numberText n) = some m) : (Json.number n).ReadTo (.numeral m) where
  run context rest hends := by
    obtain ⟨c, cs, rfl, hc⟩ := hends n rfl
    rw [write, Scan.run_numeral h context hc]
  reading := by rw [write, List.append_nil, Scan.reading_numeral h]

/-- The text of a document starts with a character that ends no array. -/
theorem write_eq_cons (j : Json) (rest : List Char) :
    ∃ c cs, j.write rest = c :: cs ∧ c ≠ ']' ∧ isBlank c = false := by
  cases j with
  | null => exact ⟨_, _, rfl, by decide, rfl⟩
  | bool b => cases b <;> exact ⟨_, _, rfl, by decide, rfl⟩
  | text s => exact ⟨_, _, rfl, by decide, rfl⟩
  | array items => cases items <;> exact ⟨_, _, by rw [write], by decide, rfl⟩
  | object entries => cases entries <;> exact ⟨_, _, by rw [write], by decide, rfl⟩
  | number n =>
    -- the text of a number starts like a literal
    obtain ⟨m, hm⟩ := n.exists_literal
    obtain ⟨draft, hdraft, -⟩ := Option.bind_eq_some_iff.1 hm
    rw [write]
    cases hcs : numberText n with
    | nil =>
      rw [hcs] at hdraft
      cases hdraft
    | cons c cs =>
      rw [hcs] at hdraft
      obtain ⟨first, hfirst, -⟩ := Option.bind_eq_some_iff.1 hdraft
      refine ⟨c, cs ++ rest, rfl, ?_, Numeral.Draft.isBlank_of_start? hfirst⟩
      rintro rfl
      exact absurd (Numeral.Draft.eq_or_isDigit_of_start? hfirst) (by decide)

/-- The first item of an array is read like any other value. -/
theorem run_firstItem (j : Json) (context : List Frame) (rest : List Char) :
    (Scan.firstItem context).run (j.write rest)
      = (Scan.awaiting (.item [] :: context)).run (j.write rest) := by
  obtain ⟨c, cs, hcs, hne, hblank⟩ := j.write_eq_cons rest
  have hstep : (Scan.firstItem context).step c = (Scan.awaiting (.item [] :: context)).step c := by
    show (Scan.firstItem context).between c = (Scan.awaiting (.item [] :: context)).between c
    simp only [Scan.between, hblank, Bool.false_eq_true, if_false, if_neg hne]
  rw [hcs, Scan.run_cons, Scan.run_cons, hstep]

theorem endsBefore_writeItems (j : Json) (items : List Json) (rest : List Char) :
    j.EndsBefore (writeItems items (']' :: rest)) := by
  intro n _
  cases items with
  | nil => exact ⟨']', rest, by rw [writeItems], Or.inr (Or.inl rfl)⟩
  | cons item items => exact ⟨',', _, by rw [writeItems], Or.inl rfl⟩

/-- **The items of an array** are read to their outlines, after those that
have been read before. -/
theorem run_writeItems {items : List Json} {outlines : List Outline}
    (h : List.Forall₂ ReadTo items outlines) (before : List Outline) (context : List Frame)
    (rest : List Char) :
    (Scan.afterItem before context).run (writeItems items (']' :: rest))
      = (Scan.complete (.array (before.reverse ++ outlines) true) context).run rest := by
  induction h generalizing before with
  | nil =>
    rw [writeItems, List.append_nil]
    rfl
  | @cons item o items outlines hitem _ ih =>
    rw [writeItems]
    show (Scan.awaiting (.item before :: context)).run (item.write _) = _
    rw [hitem.run _ _ (endsBefore_writeItems item items rest)]
    show (Scan.afterItem (o :: before) context).run _ = _
    rw [ih, List.reverse_cons, List.append_assoc, List.singleton_append]

/-- **A written array** is read to the outlines of its items. -/
theorem readTo_array {items : List Json} {outlines : List Outline}
    (h : List.Forall₂ ReadTo items outlines) :
    (Json.array items).ReadTo (.array outlines true) := by
  refine ReadTo.of_run fun context rest => ?_
  cases h with
  | nil =>
    rw [write]
    rfl
  | @cons item o items outlines hitem hitems =>
    rw [write]
    show (Scan.firstItem context).run (item.write _) = _
    rw [run_firstItem, hitem.run _ _ (endsBefore_writeItems item items rest)]
    show (Scan.afterItem [o] context).run _ = _
    rw [run_writeItems hitems]
    rfl

theorem endsBefore_writeEntries (j : Json) (entries : List (String × Json)) (rest : List Char) :
    j.EndsBefore (writeEntries entries ('\x7d' :: rest)) := by
  intro n _
  cases entries with
  | nil => exact ⟨'\x7d', rest, by rw [writeEntries], Or.inr (Or.inr rfl)⟩
  | cons entry entries => exact ⟨',', _, by rw [writeEntries], Or.inl rfl⟩

/-- **The entries of an object** are read to theirs, after those that have
been read before. -/
theorem run_writeEntries {entries : List (String × Json)} {outlines : List (List Piece × Outline)}
    (h : List.Forall₂ EntryReadTo entries outlines) (before : List (List Piece × Outline))
    (context : List Frame) (rest : List Char) :
    (Scan.afterEntry before context).run (writeEntries entries ('\x7d' :: rest))
      = (Scan.complete (.object (before.reverse ++ outlines) true) context).run rest := by
  induction h generalizing before with
  | nil =>
    rw [writeEntries, List.append_nil]
    rfl
  | @cons entry outline entries outlines hentry _ ih =>
    obtain ⟨name, value⟩ := entry
    obtain ⟨pieces, o⟩ := outline
    obtain ⟨rfl, hvalue⟩ := hentry
    rw [writeEntries]
    show (Scan.nextName before context).run (writeText name _) = _
    rw [Scan.run_writeText_nextName]
    show (Scan.awaiting (.entry before (piecesOf name) :: context)).run (value.write _) = _
    rw [hvalue.run _ _ (endsBefore_writeEntries value entries rest)]
    show (Scan.afterEntry ((piecesOf name, o) :: before) context).run _ = _
    rw [ih, List.reverse_cons, List.append_assoc, List.singleton_append]

/-- **A written object** is read to the outlines of its entries. -/
theorem readTo_object {entries : List (String × Json)} {outlines : List (List Piece × Outline)}
    (h : List.Forall₂ EntryReadTo entries outlines) :
    (Json.object entries).ReadTo (.object outlines true) := by
  refine ReadTo.of_run fun context rest => ?_
  cases h with
  | nil =>
    rw [write]
    rfl
  | @cons entry outline entries outlines hentry hentries =>
    obtain ⟨name, value⟩ := entry
    obtain ⟨pieces, o⟩ := outline
    obtain ⟨rfl, hvalue⟩ := hentry
    rw [write]
    show (Scan.firstName context).run (writeText name _) = _
    rw [Scan.run_writeText_firstName]
    show (Scan.awaiting (.entry [] (piecesOf name) :: context)).run (value.write _) = _
    rw [hvalue.run _ _ (endsBefore_writeEntries value entries rest)]
    show (Scan.afterEntry [(piecesOf name, o)] context).run _ = _
    rw [run_writeEntries hentries]
    rfl

theorem readTo_null : Json.null.ReadTo .null :=
  ReadTo.of_run fun context rest => by rw [write]; rfl

theorem readTo_bool (b : Bool) : (Json.bool b).ReadTo (.bool b) :=
  ReadTo.of_run fun context rest => by cases b <;> rw [write] <;> rfl

theorem exists_entries_readTo {entries : List (String × Json)}
    (h : ∀ entry ∈ entries, ∃ o, entry.2.ReadTo o) :
    ∃ outlines, List.Forall₂ EntryReadTo entries outlines := by
  refine exists_forall₂ fun entry hentry => ?_
  obtain ⟨o, ho⟩ := h entry hentry
  exact ⟨(piecesOf entry.1, o), rfl, ho⟩

/-- **Every document** is read to an outline when it is written. -/
theorem exists_readTo (j : Json) : ∃ o, j.ReadTo o := by
  induction j with
  | null => exact ⟨_, readTo_null⟩
  | bool b => exact ⟨_, readTo_bool b⟩
  | number n =>
    obtain ⟨m, hm⟩ := n.exists_literal
    exact ⟨_, readTo_number hm⟩
  | text s => exact ⟨_, readTo_text s⟩
  | array items ih =>
    obtain ⟨outlines, houtlines⟩ := exists_forall₂ ih
    exact ⟨_, readTo_array houtlines⟩
  | object entries ih =>
    obtain ⟨outlines, houtlines⟩ := exists_entries_readTo ih
    exact ⟨_, readTo_object houtlines⟩

theorem ReadTo.ofText_toText {j : Json} {o : Outline} (h : j.ReadTo o) :
    Reading.ofText j.toText = ⟨o, false⟩ := by
  rw [Reading.ofText, toText, String.toList_ofList, h.reading]

/-! ## Documents -/

/-- **The outline of a written document**, from which the document can be
had again. -/
structure WrittenAs (j : Json) (o : Outline) : Prop extends ReadTo j o where
  /-- The outline has the document, given enough levels for it. -/
  document : ∀ levels, o.toJson? levels = if j.nesting ≤ levels then some j else none

/-- **A written entry** of an object, as an entry of an outline. -/
structure EntryWrittenAs (entry : String × Json) (outline : List Piece × Outline) : Prop where
  /-- The pieces of the name. -/
  name : outline.1 = piecesOf entry.1
  /-- The outline of the value. -/
  value : entry.2.WrittenAs outline.2

/-- A document that takes no level has an outline with the document at every
level. -/
theorem ReadTo.writtenAs {j : Json} {o : Outline} (h : j.ReadTo o) (hnesting : j.nesting = 0)
    (document : ∀ levels, o.toJson? levels = some j) : j.WrittenAs o where
  toReadTo := h
  document levels := by rw [document, hnesting, if_pos (Nat.zero_le levels)]

/-- The outlines of items have the documents, given enough levels for
all. -/
theorem itemsToJson?_of_forall₂ {items : List Json} {outlines : List Outline}
    (h : List.Forall₂ WrittenAs items outlines) (levels : Nat) :
    Outline.itemsToJson? outlines levels
      = if maxNesting items ≤ levels then some items else none := by
  induction h with
  | nil => rw [Outline.itemsToJson?, maxNesting, if_pos (Nat.zero_le levels)]
  | @cons item o items outlines hitem _ ih =>
    rw [Outline.itemsToJson?, hitem.document, ih, maxNesting]
    exact bind_bind_of_enough List.cons

/-- **A written array** has the outline of its items. -/
theorem writtenAs_array {items : List Json} {outlines : List Outline}
    (h : List.Forall₂ WrittenAs items outlines) :
    (Json.array items).WrittenAs (.array outlines true) where
  toReadTo := readTo_array (h.imp fun _ _ => WrittenAs.toReadTo)
  document levels := by
    rw [nesting]
    cases levels with
    | zero => rw [Outline.toJson?, if_neg (by omega)]
    | succ below =>
      rw [Outline.toJson?, itemsToJson?_of_forall₂ h below]
      exact bind_of_enough Json.array

/-- The outlines of entries have the documents, given enough levels for
all. -/
theorem entriesToJson?_of_forall₂ {entries : List (String × Json)}
    {outlines : List (List Piece × Outline)} (h : List.Forall₂ EntryWrittenAs entries outlines)
    (levels : Nat) :
    Outline.entriesToJson? outlines levels
      = if maxNestingOfValues entries ≤ levels then some entries else none := by
  induction h with
  | nil => rw [Outline.entriesToJson?, maxNestingOfValues, if_pos (Nat.zero_le levels)]
  | @cons entry outline entries outlines hentry _ ih =>
    obtain ⟨name, value⟩ := entry
    obtain ⟨pieces, o⟩ := outline
    obtain ⟨rfl, hvalue⟩ := hentry
    rw [Outline.entriesToJson?, textOf?_piecesOf, hvalue.document, ih, maxNestingOfValues]
    exact bind_bind_of_enough fun value rest => (name, value) :: rest

/-- **A written object** has the outline of its entries. -/
theorem writtenAs_object {entries : List (String × Json)} {outlines : List (List Piece × Outline)}
    (h : List.Forall₂ EntryWrittenAs entries outlines) :
    (Json.object entries).WrittenAs (.object outlines true) where
  toReadTo := readTo_object (h.imp fun _ _ hentry => ⟨hentry.name, hentry.value.toReadTo⟩)
  document levels := by
    rw [nesting]
    cases levels with
    | zero => rw [Outline.toJson?, if_neg (by omega)]
    | succ below =>
      rw [Outline.toJson?, entriesToJson?_of_forall₂ h below]
      exact bind_of_enough Json.object

theorem exists_entries_writtenAs {entries : List (String × Json)}
    (h : ∀ entry ∈ entries, ∃ o, entry.2.WrittenAs o) :
    ∃ outlines, List.Forall₂ EntryWrittenAs entries outlines := by
  refine exists_forall₂ fun entry hentry => ?_
  obtain ⟨o, ho⟩ := h entry hentry
  exact ⟨(piecesOf entry.1, o), rfl, ho⟩

/-- **A legible document**: every number in it is legible. -/
inductive Legible : Json → Prop
  /-- The null is legible. -/
  | null : Legible .null
  /-- A boolean is legible. -/
  | bool (b : Bool) : Legible (.bool b)
  /-- A legible number. -/
  | number {n : Number} (number_legible : n.Legible) : Legible (.number n)
  /-- A string is legible. -/
  | text (s : String) : Legible (.text s)
  /-- An array of legible documents. -/
  | array {items : List Json} (items_legible : ∀ j ∈ items, Legible j) : Legible (.array items)
  /-- An object of legible documents. -/
  | object {entries : List (String × Json)} (values_legible : ∀ entry ∈ entries, Legible entry.2) :
    Legible (.object entries)

/-- **Every legible document** has an outline. -/
theorem Legible.exists_writtenAs {j : Json} (h : j.Legible) : ∃ o, j.WrittenAs o := by
  induction h with
  | null => exact ⟨_, readTo_null.writtenAs rfl fun _ => rfl⟩
  | bool b => exact ⟨_, (readTo_bool b).writtenAs rfl fun _ => rfl⟩
  | number hn =>
    obtain ⟨m, hm, hvalue⟩ := Option.bind_eq_some_iff.1 hn
    refine ⟨_, (readTo_number hm).writtenAs rfl fun levels => ?_⟩
    rw [Outline.toJson?, hvalue, Option.map_some]
  | text s =>
    refine ⟨_, (readTo_text s).writtenAs rfl fun levels => ?_⟩
    rw [Outline.toJson?, textOf?_piecesOf, Option.map_some]
  | array _ ih =>
    obtain ⟨outlines, houtlines⟩ := exists_forall₂ ih
    exact ⟨_, writtenAs_array houtlines⟩
  | object _ ih =>
    obtain ⟨outlines, houtlines⟩ := exists_entries_writtenAs ih
    exact ⟨_, writtenAs_object houtlines⟩

/-- **Reading back what was written** gives the document if it does not nest
deeper than there are levels, and otherwise nothing. -/
theorem Legible.toJson?_outline_ofText_toText {j : Json} (h : j.Legible) (levels : Nat) :
    (Reading.ofText j.toText).outline.toJson? levels
      = if j.nesting ≤ levels then some j else none := by
  obtain ⟨o, ho⟩ := h.exists_writtenAs
  rw [ho.ofText_toText]
  exact ho.document levels

/-- **The document of what was written**: a reader takes the text to its end, and
has `maxLevels`. -/
theorem Legible.toJson?_ofText_toText {j : Json} (h : j.Legible) :
    (Reading.ofText j.toText).toJson? = if j.nesting ≤ maxLevels then some j else none := by
  have htrailing : (Reading.ofText j.toText).trailing = false := by
    obtain ⟨o, ho⟩ := h.exists_writtenAs
    rw [ho.ofText_toText]
  rw [Reading.toJson?, htrailing, if_neg Bool.false_ne_true, h.toJson?_outline_ofText_toText]

end Json

end FilterTree
