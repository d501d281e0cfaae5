import FilterTree.Fault
import FilterTree.Json.Reading

/-!
# Decoding single values and fields

The parts that all decoders share. A single value is decoded from the head
of a document, so the same decoder serves a document (`Json.head`) and the
outline of a text (`Outline.head`).

The fields of an object are decoded in the order in which the object has
them, each as it is met, and a field that is met again is a fault before
its value is looked at. Entries that are no fields are passed over. All
objects with two fields share one function for that (`fieldsAmong`),
whatever their entries are made of and whatever passing over one takes.
-/

namespace FilterTree

/-! ## Outcomes -/

/-- **A decoder that goes on** succeeds when its first part does and then
the rest. -/
theorem bind_eq_ok_iff {ε α β : Type} {x : Except ε α} {f : α → Except ε β} {b : β} :
    (x >>= f) = .ok b ↔ ∃ a, x = .ok a ∧ f a = .ok b := by
  cases x with
  | error e =>
    refine iff_of_false nofun ?_
    rintro ⟨a, ha, -⟩
    exact absurd ha nofun
  | ok a =>
    constructor
    · intro h
      exact ⟨a, rfl, h⟩
    · rintro ⟨a', ⟨rfl⟩, h⟩
      exact h

/-- **Renaming the faults** of a decoder changes nothing about its
success. -/
@[simp] theorem mapError_eq_ok_iff {ε ε' α : Type} {f : ε → ε'} {x : Except ε α} {a : α} :
    x.mapError f = .ok a ↔ x = .ok a := by
  cases x with
  | error e => exact iff_of_false nofun nofun
  | ok b => exact ⟨fun h => congrArg _ (Except.ok.inj h), fun h => congrArg _ (Except.ok.inj h)⟩

/-! ## Single values -/

/-- A fault of type: what was found has the given head. -/
def Head.unexpected (head : Head) (expected : Expectation) : DecodeFault :=
  .wrongType (.document head) expected

/-- A string, from its head. -/
def Head.asText : Head → Except DecodeFault String
  | .text s => .ok s
  | head => .error (head.unexpected .text)

@[simp] theorem asText_head_eq_ok_iff {j : Json} {s : String} :
    j.head.asText = .ok s ↔ j = .text s := by
  cases j <;> simp [Json.head, Head.asText]

/-- A boolean, from its head. -/
def Head.asFlag : Head → Except DecodeFault Bool
  | .bool b => .ok b
  | head => .error (head.unexpected .flag)

/-- The outcome of decoding a document, for a reader of its text. -/
def asData {α : Type} : Except DecodeFault α → Except ReadFault α :=
  Except.mapError .data

@[simp] theorem asData_eq_ok_iff {α : Type} {x : Except DecodeFault α} {a : α} :
    asData x = .ok a ↔ x = .ok a :=
  mapError_eq_ok_iff

@[simp] theorem toOption_asData {α : Type} (x : Except DecodeFault α) :
    (asData x).toOption = x.toOption := by
  cases x <;> rfl

/-- What is there unless the text is torn. -/
def orMalformed {α : Type} : Option α → Except ReadFault α
  | some a => .ok a
  | none => .error .malformed

@[simp] theorem orMalformed_eq_ok_iff {α : Type} {x : Option α} {a : α} :
    orMalformed x = .ok a ↔ x = some a := by
  cases x with
  | none => exact iff_of_false nofun nofun
  | some b => rw [orMalformed, Except.ok.injEq, Option.some.injEq]

/-- The head of a value in a text. -/
def Outline.head (o : Outline) : Except ReadFault Head := orMalformed o.head?

/-- Passes over a value in a text. -/
def Outline.skip (o : Outline) : Except ReadFault Unit :=
  if o.isWhole then .ok () else .error .malformed

/-- The end of an array or object in a text. -/
def closing (closed : Bool) : Except ReadFault Unit :=
  if closed then .ok () else .error .malformed

@[simp] theorem closing_eq_ok_iff {closed : Bool} {u : Unit} :
    closing closed = .ok u ↔ closed = true := by
  cases closed with
  | false => exact iff_of_false nofun nofun
  | true => exact iff_of_true rfl rfl

/-- **Decoding a reading**: its value first, and then that nothing follows
it. -/
def Reading.decode {α : Type} (r : Reading) (value : Outline → Except ReadFault α) :
    Except ReadFault α := do
  let a ← value r.outline
  if r.trailing then .error .malformed else .ok a

/-! ## Fields -/

/-- **A field of an object**: its name, and how its value is decoded. -/
structure Field (ν ε α : Type) where
  /-- The name of the field. -/
  name : String
  /-- How its value is decoded. -/
  decode : ν → Except ε α

/-- **How entries are read**, by a decoder whose faults are of type `ε`. -/
structure Entries (κ ν ε : Type) where
  /-- The name of an entry. -/
  name : κ → Except ε String
  /-- Passing over the value of an entry that is no field. -/
  skip : ν → Except ε Unit
  /-- The fault of a field that is met again. -/
  duplicate : String → ε

/-- The entries of a document, all of which is there. -/
def Entries.ofJson : Entries String Json DecodeFault where
  name := .ok
  skip _ := .ok ()
  duplicate := .duplicateField

/-- The entries of an object in a text. -/
def Entries.ofOutline : Entries (List Piece) Outline ReadFault where
  name pieces := orMalformed (textOf? pieces)
  skip := Outline.skip
  duplicate name := .data (.duplicateField name)

/-- **Two fields among entries**, with what of them has been met before. -/
def fieldsAmong {κ ν ε α β : Type} (entries : Entries κ ν ε)
    (first : Field ν ε α) (second : Field ν ε β) :
    Option α → Option β → List (κ × ν) → Except ε (Option α × Option β)
  | a, b, [] => .ok (a, b)
  | a, b, (name, value) :: rest => do
    let name ← entries.name name
    if name = first.name then
      if a.isSome then .error (entries.duplicate name)
      else
        let met ← first.decode value
        fieldsAmong entries first second (some met) b rest
    else if name = second.name then
      if b.isSome then .error (entries.duplicate name)
      else
        let met ← second.decode value
        fieldsAmong entries first second a (some met) rest
    else
      entries.skip value
      fieldsAmong entries first second a b rest

/-- A field that may not be missing. -/
def required {α : Type} (name : String) : Option α → Except DecodeFault α
  | some a => .ok a
  | none => .error (.missingField name)

@[simp] theorem required_eq_ok_iff {α : Type} {name : String} {found : Option α} {a : α} :
    required name found = .ok a ↔ found = some a := by
  cases found with
  | none => exact iff_of_false nofun nofun
  | some b => rw [required, Except.ok.injEq, Option.some.injEq]

end FilterTree
