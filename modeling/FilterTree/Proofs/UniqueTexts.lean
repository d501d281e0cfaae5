import FilterTree.Proofs.DoubleRoundTrip

/-!
# One document for a text

No two documents have the same text (`Json.toText_injective`). The argument
goes through the reader of texts but not through decoding: a decoder gives up
on a text that nests too deep, and it does not give every double back. An
outline is different. The reader takes every written document to one
(`Json.exists_readTo`), of any depth and with its literals as they were
written, and a text has only one outline. What is left to show is that an
outline has only one document.

The parts of an outline are those of the document (`Json.OutlinedBy`), so
this comes down to what is written without parts. A string is spelled by its
pieces. The literal of an integer has neither point nor exponent, and it
spells the integer. The literal of a double has one or the other, and it
spells a decimal number that is rounded to the double and to no other.

A text therefore has one canonical form, and with it the normal form of one
tree (`Predicate.toText_canonical_eq_iff`).
-/

namespace FilterTree

/-- Lists are the same if they are related to the same list, member by member,
and a member is known by what it is related to. -/
theorem eq_of_forall₂_of_forall₂ {α β : Type} {R : α → β → Prop} {as bs : List α} {cs : List β}
    (h : ∀ a ∈ as, ∀ b c, R a c → R b c → a = b) (has : List.Forall₂ R as cs)
    (hbs : List.Forall₂ R bs cs) : as = bs := by
  induction has generalizing bs with
  | nil => rw [List.forall₂_nil_right_iff.1 hbs]
  | cons hac _ ih =>
    obtain ⟨hfirst, hrest⟩ := List.forall_mem_cons.1 h
    cases hbs with
    | cons hbc hbs => rw [hfirst _ _ hac hbc, ih hrest hbs]

theorem piecesOf_injective : Function.Injective piecesOf := by
  intro s t h
  refine Option.some.inj ?_
  rw [← textOf?_piecesOf s, h, textOf?_piecesOf]

/-! ## Numbers -/

/-- A double is known by its sign and the decimal that is written for it. -/
theorem Double.eq_of_written {x y : Double} (hnegative : x.negative = y.negative)
    (hwritten : x.written = y.written) : x = y := by
  have hmagnitude : x.magnitude = y.magnitude := by
    rw [← x.nearest_written, hwritten, y.nearest_written]
  cases x
  cases y
  simp only [Double.mk.injEq]
  exact ⟨hnegative, hmagnitude⟩

namespace Number

/-- **What a literal says** that is written for a number: an integer, or the
sign and the decimal of a double. -/
def SpelledBy (m : Numeral) : Number → Prop
  | .integer n _ _ => m.integer? = some n
  | .float x => m.negative = x.negative ∧ m.Spells x.written

/-- The literal written for a number spells the number. -/
theorem spelledBy_of_ofChars? {n : Number} {m : Numeral}
    (h : Numeral.ofChars? (Json.numberText n) = some m) : n.SpelledBy m := by
  cases n with
  | integer n lower upper =>
    have hread := Numeral.ofChars?_signedDigits n
    rwa [show signedDigits n = Json.numberText (.integer n lower upper) from rfl, h,
      Option.bind_some] at hread
  | float x =>
    obtain ⟨l, hnegative, hl, htext⟩ := x.exists_literal
    rw [Json.numberText, htext, Numeral.ofChars?_chars hl.proper] at h
    obtain rfl := Option.some.inj h
    exact ⟨hnegative, hl⟩

/-- **A literal spells one number.** -/
theorem SpelledBy.eq {n k : Number} {m : Numeral} (hn : n.SpelledBy m) (hk : k.SpelledBy m) :
    n = k := by
  cases n with
  | integer n lower upper =>
    cases k with
    | integer k _ _ =>
      obtain rfl := Option.some.inj (hn.symm.trans hk)
      rfl
    | float y =>
      exact absurd (hn.symm.trans (Numeral.integer?_of_ne hk.2.marked)) (Option.some_ne_none n)
  | float x =>
    cases k with
    | integer k _ _ =>
      exact absurd (hk.symm.trans (Numeral.integer?_of_ne hn.2.marked)) (Option.some_ne_none k)
    | float y =>
      have hwritten : x.written = y.written := by
        rw [Decimal.mk.injEq]
        exact ⟨hn.2.significand.symm.trans hk.2.significand, hn.2.place.symm.trans hk.2.place⟩
      rw [Double.eq_of_written (hn.1.symm.trans hk.1) hwritten]

end Number

/-! ## Documents -/

namespace Json

/-- A text is read to one outline only, whatever document it is written
for. -/
theorem ReadTo.unique {j k : Json} {o o' : Outline} (htext : j.toText = k.toText)
    (hj : j.ReadTo o) (hk : k.ReadTo o') : o = o' := by
  have hreading : (⟨o, false⟩ : Reading) = ⟨o', false⟩ := by
    rw [← hj.ofText_toText, htext, hk.ofText_toText]
  exact (Reading.mk.inj hreading).1

/-- **The outline of a document**, part by part. -/
inductive OutlinedBy : Json → Outline → Prop
  /-- The null. -/
  | null : OutlinedBy .null .null
  /-- A boolean. -/
  | bool (b : Bool) : OutlinedBy (.bool b) (.bool b)
  /-- A number, by a literal that spells it. -/
  | number {n : Number} {m : Numeral} (literal : n.SpelledBy m) :
    OutlinedBy (.number n) (.numeral m)
  /-- A string, by its pieces. -/
  | text {s : String} {pieces : List Piece} (spelled : pieces = piecesOf s) :
    OutlinedBy (.text s) (.text pieces)
  /-- An array, by the outlines of its items. -/
  | array {items : List Json} {outlines : List Outline}
    (parts : List.Forall₂ ReadTo items outlines) : OutlinedBy (.array items) (.array outlines true)
  /-- An object, by the outlines of its entries. -/
  | object {entries : List (String × Json)} {outlines : List (List Piece × Outline)}
    (parts : List.Forall₂ EntryReadTo entries outlines) :
    OutlinedBy (.object entries) (.object outlines true)

/-- What a document is read to is made of what its parts are read to. -/
theorem ReadTo.outlinedBy {j : Json} {o : Outline} (h : j.ReadTo o) : j.OutlinedBy o := by
  cases j with
  | null => exact ReadTo.unique rfl h readTo_null ▸ .null
  | bool b => exact ReadTo.unique rfl h (readTo_bool b) ▸ .bool b
  | number n =>
    obtain ⟨m, hm⟩ := n.exists_literal
    exact ReadTo.unique rfl h (readTo_number hm) ▸ .number (Number.spelledBy_of_ofChars? hm)
  | text s => exact ReadTo.unique rfl h (readTo_text s) ▸ .text rfl
  | array items =>
    obtain ⟨outlines, houtlines⟩ := exists_forall₂ fun j (_ : j ∈ items) => j.exists_readTo
    exact ReadTo.unique rfl h (readTo_array houtlines) ▸ .array houtlines
  | object entries =>
    obtain ⟨outlines, houtlines⟩ :=
      exists_entries_readTo fun entry (_ : entry ∈ entries) => entry.2.exists_readTo
    exact ReadTo.unique rfl h (readTo_object houtlines) ▸ .object houtlines

/-- **An outline has one document** that is read to it. -/
theorem ReadTo.eq {j k : Json} {o : Outline} (hj : j.ReadTo o) (hk : k.ReadTo o) : j = k := by
  induction j generalizing k o with
  | null =>
    cases hj.outlinedBy
    cases hk.outlinedBy
    rfl
  | bool b =>
    cases hj.outlinedBy
    cases hk.outlinedBy
    rfl
  | number n =>
    cases hj.outlinedBy with
    | number hn =>
      cases hk.outlinedBy with
      | number hm => rw [hn.eq hm]
  | text s =>
    cases hj.outlinedBy with
    | text hs =>
      cases hk.outlinedBy with
      | text ht => rw [piecesOf_injective (hs.symm.trans ht)]
  | array items ih =>
    cases hj.outlinedBy with
    | array hitems =>
      cases hk.outlinedBy with
      | array hothers =>
        have hitem : ∀ item ∈ items, ∀ other o, item.ReadTo o → other.ReadTo o → item = other :=
          fun item hmem _ _ => ih item hmem
        rw [eq_of_forall₂_of_forall₂ hitem hitems hothers]
  | object entries ih =>
    cases hj.outlinedBy with
    | object hentries =>
      cases hk.outlinedBy with
      | object hothers =>
        have hentry : ∀ entry ∈ entries, ∀ other outline,
            EntryReadTo entry outline → EntryReadTo other outline → entry = other := by
          intro entry hmem other outline h h'
          exact Prod.ext (piecesOf_injective (h.name.symm.trans h'.name))
            (ih entry hmem h.value h'.value)
        rw [eq_of_forall₂_of_forall₂ hentry hentries hothers]

/-- **No two documents have the same text.** -/
theorem toText_injective : Function.Injective toText := by
  intro j k h
  obtain ⟨o, hj⟩ := j.exists_readTo
  obtain ⟨o', hk⟩ := k.exists_readTo
  obtain rfl : o = o' := ReadTo.unique h hj hk
  exact hj.eq hk

end Json

/-- **The text of a tree identifies the tree** up to its normal form: trees
have the same text exactly when their normal forms are the same, to the last
bit of every double. -/
theorem Predicate.toText_canonical_eq_iff (p q : Predicate) :
    p.canonical.toText = q.canonical.toText ↔ p.normalize = q.normalize :=
  Json.toText_injective.eq_iff.trans canonical_eq_iff

end FilterTree
