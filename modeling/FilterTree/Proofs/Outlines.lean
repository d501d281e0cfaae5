import FilterTree.Json.Outline

/-!
# Documents of outlines

When an outline has a document (`Outline.toJson?`), and what that is: one
lemma for each form of outline. The number of levels matters to arrays and
objects only. Everything else has the same document at every level, and the
document is a string exactly where the head of the outline is one, since an
outline has the head of its document.
-/

namespace FilterTree.Outline

theorem itemsToJson?_cons_eq_some_iff {item : Outline} {rest : List Outline} {levels : Nat}
    {js : List Json} :
    itemsToJson? (item :: rest) levels = some js
      ↔ ∃ j others, item.toJson? levels = some j ∧ itemsToJson? rest levels = some others
        ∧ js = j :: others := by
  rw [itemsToJson?]
  simp only [Option.bind_eq_bind, Option.bind_eq_some_iff, Option.some.injEq]
  constructor
  · rintro ⟨j, hj, others, hothers, rfl⟩
    exact ⟨j, others, hj, hothers, rfl⟩
  · rintro ⟨j, others, hj, hothers, rfl⟩
    exact ⟨j, hj, others, hothers, rfl⟩

theorem entriesToJson?_cons_eq_some_iff {pieces : List Piece} {value : Outline}
    {rest : List (List Piece × Outline)} {levels : Nat} {es : List (String × Json)} :
    entriesToJson? ((pieces, value) :: rest) levels = some es
      ↔ ∃ name j others, textOf? pieces = some name ∧ value.toJson? levels = some j
        ∧ entriesToJson? rest levels = some others ∧ es = (name, j) :: others := by
  rw [entriesToJson?]
  simp only [Option.bind_eq_bind, Option.bind_eq_some_iff, Option.some.injEq]
  constructor
  · rintro ⟨name, hname, j, hj, others, hothers, rfl⟩
    exact ⟨name, j, others, hname, hj, hothers, rfl⟩
  · rintro ⟨name, j, others, hname, hj, hothers, rfl⟩
    exact ⟨name, hname, j, hj, others, hothers, rfl⟩

/-- **An array has a document** when it is closed, takes a level, and its
items have documents below that level. -/
theorem toJson?_array_eq_some_iff {items : List Outline} {closed : Bool} {levels : Nat}
    {j : Json} :
    (array items closed).toJson? levels = some j
      ↔ ∃ below js, levels = below + 1 ∧ itemsToJson? items below = some js ∧ closed = true
        ∧ j = .array js := by
  cases levels with
  | zero => exact iff_of_false nofun nofun
  | succ below =>
    rw [toJson?]
    simp only [Option.bind_eq_bind, Option.bind_eq_some_iff, Option.ite_none_right_eq_some,
      Option.some.injEq, Nat.add_right_cancel_iff]
    constructor
    · rintro ⟨js, hjs, hclosed, rfl⟩
      exact ⟨below, js, rfl, hjs, hclosed, rfl⟩
    · rintro ⟨_, js, rfl, hjs, hclosed, rfl⟩
      exact ⟨js, hjs, hclosed, rfl⟩

/-- **An object has a document** when it is closed, takes a level, and its
entries have documents below that level. -/
theorem toJson?_object_eq_some_iff {entries : List (List Piece × Outline)} {closed : Bool}
    {levels : Nat} {j : Json} :
    (object entries closed).toJson? levels = some j
      ↔ ∃ below es, levels = below + 1 ∧ entriesToJson? entries below = some es ∧ closed = true
        ∧ j = .object es := by
  cases levels with
  | zero => exact iff_of_false nofun nofun
  | succ below =>
    rw [toJson?]
    simp only [Option.bind_eq_bind, Option.bind_eq_some_iff, Option.ite_none_right_eq_some,
      Option.some.injEq, Nat.add_right_cancel_iff]
    constructor
    · rintro ⟨es, hes, hclosed, rfl⟩
      exact ⟨below, es, rfl, hes, hclosed, rfl⟩
    · rintro ⟨_, es, rfl, hes, hclosed, rfl⟩
      exact ⟨es, hes, hclosed, rfl⟩

/-- **The document of an outline is a string** when the outline's head is, at
any number of levels. -/
theorem toJson?_eq_text_iff {o : Outline} {levels : Nat} {s : String} :
    o.toJson? levels = some (.text s) ↔ o.head? = some (.text s) := by
  cases o with
  | array items closed => simp [toJson?_array_eq_some_iff, head?]
  | object entries closed => simp [toJson?_object_eq_some_iff, head?]
  | text pieces => simp [toJson?, head?]
  | numeral n => simp [toJson?, head?]
  | torn => simp [toJson?, head?]
  | null => simp [toJson?, head?]
  | bool b => simp [toJson?, head?]

/-- **An outline with a document** has the head of the document. -/
theorem head?_of_toJson? {o : Outline} {levels : Nat} {j : Json}
    (h : o.toJson? levels = some j) : o.head? = some j.head := by
  cases o with
  | array items closed =>
    obtain ⟨_, _, -, -, -, rfl⟩ := toJson?_array_eq_some_iff.1 h
    rfl
  | object entries closed =>
    obtain ⟨_, _, -, -, -, rfl⟩ := toJson?_object_eq_some_iff.1 h
    rfl
  | numeral n =>
    obtain ⟨number, hnumber, rfl⟩ := Option.map_eq_some_iff.1 h
    rw [head?, hnumber]
    rfl
  | text pieces =>
    obtain ⟨s, hs, rfl⟩ := Option.map_eq_some_iff.1 h
    rw [head?, hs]
    rfl
  | torn => cases h
  | null =>
    obtain rfl := Option.some.inj h
    rfl
  | bool b =>
    obtain rfl := Option.some.inj h
    rfl

end FilterTree.Outline
