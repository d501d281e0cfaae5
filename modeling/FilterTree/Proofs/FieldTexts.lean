import FilterTree.Proofs.TextDecoding

/-!
# Fields in texts and in documents

An object with two fields is read from a text by the loop that decodes its
document, with other entries: what is passed over has to be well formed, and a
name has to have a text. Where there is a document these two are granted
(`Outline.isWhole_of_toJson?`, `Outline.entriesToJson?_cons_eq_some_iff`). So
the two runs give the same as soon as the values of the fields are decoded to
the same (`toOption_fieldsAmong`).

The same is meant up to the fault. A reader may hold a value to be a fault of
the text where the decoder of documents finds a wrong type, and stops earlier
for it. Outcomes are therefore compared by `Except.toOption`, as an equation
that passes through every further step of a decoder.
-/

namespace FilterTree

@[simp] theorem toOption_eq_some_iff {ε α : Type} {x : Except ε α} {a : α} :
    x.toOption = some a ↔ x = .ok a := by
  cases x with
  | error e => exact iff_of_false nofun nofun
  | ok b => rw [Except.toOption, Option.some.injEq, Except.ok.injEq]

@[simp] theorem toOption_bind {ε α β : Type} (x : Except ε α) (f : α → Except ε β) :
    (x >>= f).toOption = x.toOption.bind fun a => (f a).toOption := by
  cases x <;> rfl

theorem toOption_bind_error {ε α β : Type} (x : Except ε α) (fault : α → ε) :
    (x >>= fun a => (.error (fault a) : Except ε β)).toOption = none := by
  cases x <;> rfl

/-- **Two items in order** come to what they come to as documents. A reader finds
that the array does not end where the documents of further items are left. -/
theorem toOption_inOrder {α β γ : Type} {first : Except ReadFault α} {second : Except ReadFault β}
    {firstOf : Except DecodeFault α} {secondOf : Except DecodeFault β}
    (hfirst : first.toOption = firstOf.toOption) (hsecond : second.toOption = secondOf.toOption)
    {more : List Outline} {levels : Nat} {others : List Json}
    (hmore : Outline.itemsToJson? more levels = some others) (make : α → β → γ)
    (fault : DecodeFault) :
    (do let a ← first
        let b ← second
        closing (true && more.isEmpty)
        .ok (make a b)).toOption
      = (do let a ← firstOf
            let b ← secondOf
            if others.isEmpty then .ok (make a b) else .error fault).toOption := by
  rw [toOption_bind, toOption_bind, hfirst]
  refine congrArg _ (funext fun a => ?_)
  rw [toOption_bind, toOption_bind, hsecond]
  refine congrArg _ (funext fun b => ?_)
  cases more with
  | nil =>
    obtain rfl := Option.some.inj hmore
    rfl
  | cons item rest =>
    obtain ⟨_, _, -, -, rfl⟩ := Outline.itemsToJson?_cons_eq_some_iff.1 hmore
    rfl

namespace Outline

mutual

/-- **What has a document is well formed**, and so it can be passed over. -/
theorem isWhole_of_toJson? : ∀ {o : Outline} {levels : Nat} {j : Json},
    o.toJson? levels = some j → o.isWhole = true
  | .torn, _, _, h => by cases h
  | .null, _, _, _ => rfl
  | .bool _, _, _, _ => rfl
  | .numeral _, _, _, _ => rfl
  | .text _, _, _, _ => rfl
  | .array items closed, _, _, h => by
    obtain ⟨_, _, rfl, hitems, rfl, rfl⟩ := toJson?_array_eq_some_iff.1 h
    rw [isWhole, areWhole_of_itemsToJson? hitems, Bool.true_and]
  | .object entries closed, _, _, h => by
    obtain ⟨_, _, rfl, hentries, rfl, rfl⟩ := toJson?_object_eq_some_iff.1 h
    rw [isWhole, entriesAreWhole_of_entriesToJson? hentries, Bool.true_and]

theorem areWhole_of_itemsToJson? : ∀ {items : List Outline} {levels : Nat} {js : List Json},
    itemsToJson? items levels = some js → areWhole items = true
  | [], _, _, _ => rfl
  | item :: rest, _, _, h => by
    obtain ⟨_, _, hitem, hrest, rfl⟩ := itemsToJson?_cons_eq_some_iff.1 h
    rw [areWhole, isWhole_of_toJson? hitem, areWhole_of_itemsToJson? hrest, Bool.true_and]

theorem entriesAreWhole_of_entriesToJson? :
    ∀ {entries : List (List Piece × Outline)} {levels : Nat} {es : List (String × Json)},
    entriesToJson? entries levels = some es → entriesAreWhole entries = true
  | [], _, _, _ => rfl
  | (_, value) :: rest, _, _, h => by
    obtain ⟨_, _, _, _, hvalue, hrest, rfl⟩ := entriesToJson?_cons_eq_some_iff.1 h
    rw [entriesAreWhole, isWhole_of_toJson? hvalue, entriesAreWhole_of_entriesToJson? hrest,
      Bool.true_and]

end

end Outline

/-! ## Fields -/

variable {α β : Type} {levels : Nat}

/-- **One field for two ways of decoding**: a reader of texts has it under the
same name, and of a value that has a document it gives what is decoded from
the document. -/
structure Field.ReadBy (field : Field Json DecodeFault α) (reader : Field Outline ReadFault α)
    (levels : Nat) : Prop where
  /-- The name is the same. -/
  name_eq : reader.name = field.name
  /-- A value is decoded like its document. -/
  decode_eq : ∀ {o : Outline} {j : Json}, o.toJson? levels = some j →
    (reader.decode o).toOption = (field.decode j).toOption

/-- **Two fields among entries** of a text come to what they come to among the
documents of the entries. -/
theorem toOption_fieldsAmong {first : Field Json DecodeFault α} {second : Field Json DecodeFault β}
    {firstReader : Field Outline ReadFault α} {secondReader : Field Outline ReadFault β}
    (hfirst : first.ReadBy firstReader levels) (hsecond : second.ReadBy secondReader levels)
    (found : Option α) (found' : Option β) {entries : List (List Piece × Outline)}
    {es : List (String × Json)} (h : Outline.entriesToJson? entries levels = some es) :
    (fieldsAmong .ofOutline firstReader secondReader found found' entries).toOption
      = (fieldsAmong .ofJson first second found found' es).toOption := by
  induction entries generalizing found found' es with
  | nil =>
    obtain rfl := Option.some.inj h
    rfl
  | cons entry rest ih =>
    obtain ⟨pieces, value⟩ := entry
    obtain ⟨name, j, others, hname, hvalue, hrest, rfl⟩ :=
      Outline.entriesToJson?_cons_eq_some_iff.1 h
    have hread : Entries.ofOutline.name pieces = .ok name := orMalformed_eq_ok_iff.2 hname
    have hskip : Entries.ofOutline.skip value = .ok () := by
      show (if value.isWhole then _ else _) = _
      rw [if_pos (Outline.isWhole_of_toJson? hvalue)]
    rw [fieldsAmong, fieldsAmong, hread, hfirst.name_eq, hsecond.name_eq]
    show (if name = first.name then _ else _ : Except ReadFault _).toOption
      = (if name = first.name then _ else _ : Except DecodeFault _).toOption
    by_cases hname : name = first.name
    · rw [if_pos hname, if_pos hname]
      cases found with
      | some met => rfl
      | none =>
        show (firstReader.decode value >>= fun met => _).toOption
          = (first.decode j >>= fun met => _).toOption
        rw [toOption_bind, toOption_bind, hfirst.decode_eq hvalue]
        exact congrArg _ (funext fun met => ih (some met) found' hrest)
    · rw [if_neg hname, if_neg hname]
      by_cases hname' : name = second.name
      · rw [if_pos hname', if_pos hname']
        cases found' with
        | some met => rfl
        | none =>
          show (secondReader.decode value >>= fun met => _).toOption
            = (second.decode j >>= fun met => _).toOption
          rw [toOption_bind, toOption_bind, hsecond.decode_eq hvalue]
          exact congrArg _ (funext fun met => ih found (some met) hrest)
      · rw [if_neg hname', if_neg hname', hskip]
        exact ih found found' hrest

/-! ## Whole texts -/

/-- **A text with a document** is decoded like the document, if its value is. -/
theorem Reading.decode_eq_ok_iff {r : Reading} {j : Json} (h : r.toJson? = some j)
    {value : Outline → Except ReadFault α} {document : Json → Except DecodeFault α}
    (hvalue : ∀ {o : Outline} {levels : Nat} {j : Json}, o.toJson? levels = some j →
      (value o).toOption = (document j).toOption) {a : α} :
    r.decode value = .ok a ↔ document j = .ok a := by
  obtain ⟨htrailing, houtline⟩ := toJson?_eq_some_iff.1 h
  rw [← toOption_eq_some_iff (x := document j), ← hvalue houtline, toOption_eq_some_iff, decode,
    htrailing]
  cases value r.outline with
  | error fault => exact Iff.rfl
  | ok b => exact Iff.rfl

end FilterTree
