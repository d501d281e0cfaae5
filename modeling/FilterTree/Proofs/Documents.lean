import FilterTree.Decoding
import Mathlib.Data.List.Forall2

/-!
# Entries of documents

Decoders go through the entries of an object one by one and keep what they
have met so far. What comes out when they succeed does not depend on the
order: every field that is asked for has exactly one entry
(`Json.SoleEntry`), and its value is decoded. `Field.Yields` says that of
one field while some of the entries are still to come, `Field.MayYield` of
one that may also be missing, and `fieldAmong_eq_ok_iff` and
`fieldsAmong_eq_ok_iff` say it of the loops.

Inductions over documents go by `Json.document_induction`, which has the
statement for all items of an array and for the values of all entries of an
object at once.
-/

namespace FilterTree

/-- **A decoder whose faults are renamed** fails when it does, with the fault
renamed. -/
@[simp] theorem mapError_eq_error_iff {ε ε' α : Type} {f : ε → ε'} {x : Except ε α} {e' : ε'} :
    x.mapError f = .error e' ↔ ∃ e, x = .error e ∧ f e = e' := by
  cases x with
  | error e => simp [Except.mapError]
  | ok b => exact iff_of_false nofun nofun

theorem forall₂_imp_of_mem {α β : Type} {R S : α → β → Prop} {as : List α} {bs : List β}
    (h : ∀ a ∈ as, ∀ b, R a b → S a b) (hR : List.Forall₂ R as bs) : List.Forall₂ S as bs := by
  induction hR with
  | nil => exact .nil
  | cons hab _ ih =>
    exact .cons (h _ List.mem_cons_self _ hab) (ih fun c hc => h c (List.mem_cons_of_mem _ hc))

theorem forall₂_congr_of_mem {α β : Type} {R S : α → β → Prop} {as : List α} {bs : List β}
    (h : ∀ a ∈ as, ∀ b, R a b ↔ S a b) : List.Forall₂ R as bs ↔ List.Forall₂ S as bs :=
  ⟨forall₂_imp_of_mem fun a ha b => (h a ha b).1, forall₂_imp_of_mem fun a ha b => (h a ha b).2⟩

theorem exists_of_forall₂_of_mem_right {α β : Type} {R : α → β → Prop} {as : List α} {bs : List β}
    (h : List.Forall₂ R as bs) {b : β} (hb : b ∈ bs) : ∃ a ∈ as, R a b := by
  induction h with
  | nil => exact absurd hb List.not_mem_nil
  | cons hR _ ih =>
    rcases List.mem_cons.1 hb with rfl | hb
    · exact ⟨_, List.mem_cons_self, hR⟩
    · obtain ⟨a, ha, hab⟩ := ih hb
      exact ⟨a, List.mem_cons_of_mem _ ha, hab⟩

theorem exists_forall₂ {α β : Type} {R : α → β → Prop} {as : List α}
    (h : ∀ a ∈ as, ∃ b, R a b) : ∃ bs, List.Forall₂ R as bs := by
  induction as with
  | nil => exact ⟨[], .nil⟩
  | cons a as ih =>
    obtain ⟨b, hb⟩ := h a List.mem_cons_self
    obtain ⟨bs, hbs⟩ := ih fun c hc => h c (List.mem_cons_of_mem _ hc)
    exact ⟨b :: bs, .cons hb hbs⟩

/-- **A decoder of lists** that decodes one item after the other succeeds
when it does on each. -/
theorem decodeItems_eq_ok_iff {ε α β : Type} (item : α → Except ε β)
    (items : List α → Except ε (List β)) (hnil : items [] = .ok [])
    (hcons : ∀ a rest,
      items (a :: rest) = item a >>= fun b => items rest >>= fun bs => .ok (b :: bs))
    {as : List α} {bs : List β} :
    items as = .ok bs ↔ List.Forall₂ (fun a b => item a = .ok b) as bs := by
  induction as generalizing bs with
  | nil => rw [hnil, Except.ok.injEq, List.forall₂_nil_left_iff, eq_comm]
  | cons a rest ih =>
    rw [hcons, bind_eq_ok_iff, List.forall₂_cons_left_iff]
    simp only [bind_eq_ok_iff, ih, Except.ok.injEq]
    constructor
    · rintro ⟨b, hb, bs', hbs', rfl⟩
      exact ⟨b, bs', hb, hbs', rfl⟩
    · rintro ⟨b, bs', hb, hbs', rfl⟩
      exact ⟨b, hb, bs', hbs', rfl⟩

namespace Json

/-- **Induction on documents**: a statement that holds of single values, of
an array when it holds of all its items, and of an object when it holds of
the values of all its entries, holds of every document. -/
@[elab_as_elim, induction_eliminator]
theorem document_induction {motive : Json → Prop} (null : motive .null)
    (bool : ∀ b, motive (.bool b)) (number : ∀ n, motive (.number n))
    (text : ∀ s, motive (.text s))
    (array : ∀ items, (∀ j ∈ items, motive j) → motive (.array items))
    (object : ∀ entries, (∀ entry ∈ entries, motive entry.2) → motive (.object entries))
    (j : Json) : motive j := by
  refine @Json.rec motive (fun items => ∀ j ∈ items, motive j)
    (fun entries => ∀ entry ∈ entries, motive entry.2) (fun entry => motive entry.2)
    null bool number text array object ?_ ?_ ?_ ?_ ?_ j
  · intro j hj
    exact absurd hj List.not_mem_nil
  · intro j items hj hitems i hi
    rcases List.mem_cons.1 hi with rfl | hi
    · exact hj
    · exact hitems i hi
  · intro entry hentry
    exact absurd hentry List.not_mem_nil
  · intro entry entries hentry hentries e he
    rcases List.mem_cons.1 he with rfl | he
    · exact hentry
    · exact hentries e he
  · intro name value hvalue
    exact hvalue

/-- **The entries of a name**, in order. -/
def entriesOf (name : String) (entries : List (String × Json)) : List (String × Json) :=
  entries.filter fun entry => entry.1 = name

/-- **The only entry of a name**: the object has one of that name, with the
given value, and no other. -/
def SoleEntry (entries : List (String × Json)) (name : String) (value : Json) : Prop :=
  entriesOf name entries = [(name, value)]

@[simp] theorem entriesOf_cons_self (name : String) (value : Json) (rest : List (String × Json)) :
    entriesOf name ((name, value) :: rest) = (name, value) :: entriesOf name rest :=
  List.filter_cons_of_pos (decide_eq_true rfl)

theorem entriesOf_cons_of_ne {name other : String} (h : other ≠ name) (value : Json)
    (rest : List (String × Json)) :
    entriesOf name ((other, value) :: rest) = entriesOf name rest :=
  List.filter_cons_of_neg (by simpa using h)

theorem SoleEntry.mem {entries : List (String × Json)} {name : String} {value : Json}
    (h : SoleEntry entries name value) : (name, value) ∈ entries := by
  have hmem : (name, value) ∈ entriesOf name entries := by
    rw [h]
    exact List.mem_singleton_self _
  exact (List.mem_filter.1 hmem).1

theorem SoleEntry.unique {entries : List (String × Json)} {name : String} {i j : Json}
    (hi : SoleEntry entries name i) (hj : SoleEntry entries name j) : i = j := by
  simpa using hi.symm.trans hj

/-- **Where each name occurs once**, the only entry of a name is the entry of
that name. -/
theorem soleEntry_iff_mem {entries : List (String × Json)} (h : (entries.map Prod.fst).Nodup)
    {name : String} {value : Json} :
    SoleEntry entries name value ↔ (name, value) ∈ entries := by
  refine ⟨SoleEntry.mem, ?_⟩
  induction entries with
  | nil => exact fun hmem => absurd hmem List.not_mem_nil
  | cons entry rest ih =>
    rw [List.map_cons, List.nodup_cons] at h
    intro hmem
    rcases List.mem_cons.1 hmem with rfl | hmem
    · have hrest : entriesOf name rest = [] := by
        refine List.filter_eq_nil_iff.2 fun other hother => ?_
        have hne : other.1 ≠ name := by
          rintro rfl
          exact h.1 (List.mem_map.2 ⟨other, hother, rfl⟩)
        simpa using hne
      rw [SoleEntry, entriesOf_cons_self, hrest]
    · have hne : entry.1 ≠ name := by
        rintro rfl
        exact h.1 (List.mem_map.2 ⟨_, hmem, rfl⟩)
      rw [SoleEntry, entriesOf_cons_of_ne hne]
      exact ih h.2 hmem

end Json

/-! ## One field -/

variable {α β : Type}

/-- **What a field comes to**, given its value if it has been met and the
entries still to come: it has been met and does not come again, or it comes
once and is decoded. -/
def Field.Yields (field : Field Json DecodeFault α) :
    Option α → List (String × Json) → α → Prop
  | some met, entries, a => met = a ∧ Json.entriesOf field.name entries = []
  | none, entries, a =>
    ∃ value, Json.SoleEntry entries field.name value ∧ field.decode value = .ok a

namespace Field

variable {field : Field Json DecodeFault α} {found : Option α} {rest : List (String × Json)} {a : α}

@[simp] theorem yields_nil : field.Yields found [] a ↔ found = some a := by
  cases found with
  | none => simp [Yields, Json.SoleEntry, Json.entriesOf]
  | some met => simp [Yields, Json.entriesOf]

theorem yields_cons_of_ne {name : String} (h : name ≠ field.name) (value : Json) :
    field.Yields found ((name, value) :: rest) a ↔ field.Yields found rest a := by
  cases found with
  | none => simp only [Yields, Json.SoleEntry, Json.entriesOf_cons_of_ne h]
  | some met => simp only [Yields, Json.entriesOf_cons_of_ne h]

/-- A field that has not been met is decoded where it comes. -/
theorem yields_cons_none (value : Json) :
    field.Yields none ((field.name, value) :: rest) a
      ↔ ∃ b, field.decode value = .ok b ∧ field.Yields (some b) rest a := by
  simp only [Yields, Json.SoleEntry, Json.entriesOf_cons_self]
  constructor
  · rintro ⟨v, hv, ha⟩
    obtain ⟨⟨-, rfl⟩, hrest⟩ : (True ∧ value = v) ∧ Json.entriesOf field.name rest = [] := by
      simpa using hv
    exact ⟨a, ha, rfl, hrest⟩
  · rintro ⟨b, hb, rfl, hrest⟩
    exact ⟨value, by rw [hrest], hb⟩

/-- A field that has been met may not come again. -/
theorem not_yields_cons_some (value : Json) (met : α) :
    ¬ field.Yields (some met) ((field.name, value) :: rest) a := by
  rintro ⟨-, h⟩
  rw [Json.entriesOf_cons_self] at h
  exact absurd h (List.cons_ne_nil _ _)

end Field

/-- **One field among entries**, given what of it has been met before. -/
def fieldAmong (field : Field Json DecodeFault α) :
    Option α → List (String × Json) → Except DecodeFault α
  | found, [] => required field.name found
  | found, (name, value) :: rest =>
    if name = field.name then
      if found.isSome then .error (.duplicateField field.name)
      else do
        let a ← field.decode value
        fieldAmong field (some a) rest
    else fieldAmong field found rest

/-- **The loop for one field** succeeds with what the field comes to. -/
theorem fieldAmong_eq_ok_iff {field : Field Json DecodeFault α} {found : Option α}
    {entries : List (String × Json)} {a : α} :
    fieldAmong field found entries = .ok a ↔ field.Yields found entries a := by
  induction entries generalizing found with
  | nil => rw [fieldAmong, required_eq_ok_iff, Field.yields_nil]
  | cons entry rest ih =>
    obtain ⟨name, value⟩ := entry
    rw [fieldAmong]
    by_cases hname : name = field.name
    · subst hname
      rw [if_pos rfl]
      cases found with
      | none =>
        rw [if_neg (by simp), bind_eq_ok_iff, Field.yields_cons_none]
        simp only [ih]
      | some met => exact iff_of_false (by simp) (Field.not_yields_cons_some value met)
    · rw [if_neg hname, ih, Field.yields_cons_of_ne hname]

/-! ## Two fields -/

/-- **What a field may come to** where it may also be missing: what it yields,
or nothing if it has not been met and does not come. -/
def Field.MayYield (field : Field Json DecodeFault α) (found : Option α)
    (entries : List (String × Json)) : Option α → Prop
  | some a => field.Yields found entries a
  | none => found = none ∧ Json.entriesOf field.name entries = []

namespace Field

variable {field : Field Json DecodeFault α} {found x : Option α} {rest : List (String × Json)}

@[simp] theorem mayYield_nil : field.MayYield found [] x ↔ found = x := by
  cases x with
  | none => exact and_iff_left rfl
  | some a => exact yields_nil

theorem mayYield_cons_of_ne {name : String} (h : name ≠ field.name) (value : Json) :
    field.MayYield found ((name, value) :: rest) x ↔ field.MayYield found rest x := by
  cases x with
  | none => simp only [MayYield, Json.entriesOf_cons_of_ne h]
  | some a => exact yields_cons_of_ne h value

theorem mayYield_cons_none (value : Json) :
    field.MayYield none ((field.name, value) :: rest) x
      ↔ ∃ b, field.decode value = .ok b ∧ field.MayYield (some b) rest x := by
  cases x with
  | none => simp [MayYield]
  | some a => exact yields_cons_none value

theorem not_mayYield_cons_some (value : Json) (met : α) :
    ¬ field.MayYield (some met) ((field.name, value) :: rest) x := by
  cases x with
  | none => exact fun h => absurd h.1 nofun
  | some a => exact not_yields_cons_some value met

end Field

/-- **The loop for two fields** succeeds with what each of them comes to. -/
theorem fieldsAmong_eq_ok_iff {first : Field Json DecodeFault α}
    {second : Field Json DecodeFault β} (hnames : first.name ≠ second.name) {found x : Option α}
    {found' y : Option β} {entries : List (String × Json)} :
    fieldsAmong .ofJson first second found found' entries = .ok (x, y)
      ↔ first.MayYield found entries x ∧ second.MayYield found' entries y := by
  induction entries generalizing found found' with
  | nil => rw [fieldsAmong, Except.ok.injEq, Prod.mk.injEq, Field.mayYield_nil, Field.mayYield_nil]
  | cons entry rest ih =>
    obtain ⟨name, value⟩ := entry
    -- an entry is the first field, the second, or passed over
    show (if name = first.name then _ else _) = Except.ok (x, y) ↔ _
    by_cases hfirst : name = first.name
    · subst hfirst
      rw [if_pos rfl, Field.mayYield_cons_of_ne hnames]
      cases found with
      | none =>
        rw [if_neg (by simp), bind_eq_ok_iff, Field.mayYield_cons_none]
        simp only [ih]
        exact ⟨fun ⟨met, hmet, h, h'⟩ => ⟨⟨met, hmet, h⟩, h'⟩,
          fun ⟨⟨met, hmet, h⟩, h'⟩ => ⟨met, hmet, h, h'⟩⟩
      | some met =>
        exact iff_of_false (by simp) fun h => Field.not_mayYield_cons_some value met h.1
    · rw [if_neg hfirst, Field.mayYield_cons_of_ne hfirst]
      by_cases hsecond : name = second.name
      · subst hsecond
        rw [if_pos rfl]
        cases found' with
        | none =>
          rw [if_neg (by simp), bind_eq_ok_iff, Field.mayYield_cons_none]
          simp only [ih]
          exact ⟨fun ⟨met, hmet, h, h'⟩ => ⟨h, met, hmet, h'⟩,
            fun ⟨h, met, hmet, h'⟩ => ⟨met, hmet, h, h'⟩⟩
        | some met =>
          exact iff_of_false (by simp) fun h => Field.not_mayYield_cons_some value met h.2
      · rw [if_neg hsecond, Field.mayYield_cons_of_ne hsecond, ← ih]
        rfl

end FilterTree
