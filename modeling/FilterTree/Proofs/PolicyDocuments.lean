import FilterTree.Policy.Decode
import FilterTree.Proofs.FieldTexts

/-!
# What a document says of a policy

A policy that is decoded comes from outside, and what it allows is not checked
any more. So it matters that a flag is on only where the document says so:
with the word `true`, at the place of the flag, and not merely with a name
that resembles it or with a value that could be taken for true.
`Json.DenotesPolicy` is what a document says of both flags. An object gives
them by name, whatever else is in it, and an array by their order. A flag that
is not given is off, and one that is given without being a boolean leaves the
document without a policy.

Decoding follows just that (`Policy.ofJson_eq_ok_iff`). A text is decoded
without making a document of it, but where it has one it gives the same policy
(`Policy.toOption_ofOutline`). What can still differ is a flag that comes
twice: a text with it is refused, and in a normal form the last of the two has
taken the place of the first. If neither flag comes twice among the entries of
the root, then texts and documents are decoded alike
(`Policy.ofJson_eq_ok_iff_denotesPolicy`). Nothing is asked of the other
entries, or of what is in them.
-/

namespace FilterTree

/-! ## Flags in a document -/

namespace Json

/-- **What entries say of a flag**: what its only entry says, or that it is off
if it has no entry. -/
def FlagAmong (entries : List (String × Json)) (name : String) (flag : Bool) : Prop :=
  SoleEntry entries name (.bool flag) ∨ entriesOf name entries = [] ∧ flag = false

/-- **What items say of a flag**: what stands in its place, or that it is off if
the items end before it. -/
def FlagAt (items : List Json) (place : Nat) (flag : Bool) : Prop :=
  items[place]? = some (.bool flag) ∨ items[place]? = none ∧ flag = false

/-- **The policy that a document denotes.** -/
inductive DenotesPolicy : Json → Policy → Prop
  /-- An object gives the flags by their names, among any other entries. -/
  | object {entries : List (String × Json)} {policy : Policy}
    (emptyKey : FlagAmong entries Policy.emptyKeyName policy.allowEmptyKey)
    (emptyValues : FlagAmong entries Policy.emptyValuesName policy.allowEmptyValues) :
    DenotesPolicy (.object entries) policy
  /-- An array gives the flags in order and has no other items. -/
  | array {items : List Json} {policy : Policy} (length_le : items.length ≤ 2)
    (emptyKey : FlagAt items 0 policy.allowEmptyKey)
    (emptyValues : FlagAt items 1 policy.allowEmptyValues) :
    DenotesPolicy (.array items) policy

/-- **Saying true of a flag**, by its name or in its place. -/
def Affirms : Json → String → Nat → Prop
  | .object entries, name, _ => SoleEntry entries name (.bool true)
  | .array items, _, place => items[place]? = some (.bool true)
  | _, _, _ => False

/-- **Flags once**: neither flag comes twice among the entries of the root. -/
def FlagsOnce (j : Json) : Prop :=
  ∀ entries, j = .object entries →
    (entriesOf Policy.emptyKeyName entries).length ≤ 1
      ∧ (entriesOf Policy.emptyValuesName entries).length ≤ 1

/-- A flag is on only where its entry is true. -/
theorem FlagAmong.soleEntry_true {entries : List (String × Json)} {name : String} {flag : Bool}
    (h : FlagAmong entries name flag) (hflag : flag = true) :
    SoleEntry entries name (.bool true) := by
  subst hflag
  exact h.resolve_right fun hnone => absurd hnone.2 nofun

/-- A flag is on only where its item is true. -/
theorem FlagAt.getElem?_eq_true {items : List Json} {place : Nat} {flag : Bool}
    (h : FlagAt items place flag) (hflag : flag = true) :
    items[place]? = some (.bool true) := by
  subst hflag
  exact h.resolve_right fun hnone => absurd hnone.2 nofun

/-- **A policy allows only what its document affirms.** -/
theorem DenotesPolicy.affirms {j : Json} {policy : Policy} (h : j.DenotesPolicy policy) :
    (policy.allowEmptyKey = true → j.Affirms Policy.emptyKeyName 0)
      ∧ (policy.allowEmptyValues = true → j.Affirms Policy.emptyValuesName 1) := by
  cases h with
  | object emptyKey emptyValues => exact ⟨emptyKey.soleEntry_true, emptyValues.soleEntry_true⟩
  | array _ emptyKey emptyValues => exact ⟨emptyKey.getElem?_eq_true, emptyValues.getElem?_eq_true⟩

@[simp] theorem normalize_eq_bool_iff {j : Json} {b : Bool} :
    j.normalize = .bool b ↔ j = .bool b := by
  cases j <;> simp [normalize]

/-- Entries in normal form say the same of a flag that comes once at most. -/
theorem flagAmong_normalizeEntries_iff {entries : List (String × Json)} {name : String}
    {flag : Bool} (h : (entriesOf name entries).length ≤ 1) :
    FlagAmong (normalizeEntries entries) name flag ↔ FlagAmong entries name flag := by
  unfold FlagAmong SoleEntry
  rw [entriesOf_normalizeEntries h, List.map_eq_nil_iff, List.map_eq_singleton_iff]
  refine or_congr_left ⟨?_, ?_⟩
  · rintro ⟨⟨other, value⟩, hentries, hentry⟩
    obtain ⟨rfl, hvalue⟩ := Prod.mk.inj hentry
    rwa [← normalize_eq_bool_iff.1 hvalue]
  · intro hentries
    exact ⟨(name, .bool flag), hentries, rfl⟩

theorem flagAt_map_normalize_iff {items : List Json} {place : Nat} {flag : Bool} :
    FlagAt (items.map normalize) place flag ↔ FlagAt items place flag := by
  unfold FlagAt
  rw [List.getElem?_map, Option.map_eq_none_iff, Option.map_eq_some_iff]
  simp only [normalize_eq_bool_iff, exists_eq_right]

/-- **A document and its normal form** denote the same policy, if no flag comes
twice. -/
theorem denotesPolicy_normalize_iff {j : Json} {policy : Policy} (h : j.FlagsOnce) :
    j.normalize.DenotesPolicy policy ↔ j.DenotesPolicy policy := by
  cases j with
  | object entries =>
    obtain ⟨hkey, hvalues⟩ := h entries rfl
    rw [normalize]
    constructor
    · rintro (⟨emptyKey, emptyValues⟩ | _)
      exact .object ((flagAmong_normalizeEntries_iff hkey).1 emptyKey)
        ((flagAmong_normalizeEntries_iff hvalues).1 emptyValues)
    · rintro (⟨emptyKey, emptyValues⟩ | _)
      exact .object ((flagAmong_normalizeEntries_iff hkey).2 emptyKey)
        ((flagAmong_normalizeEntries_iff hvalues).2 emptyValues)
  | array items =>
    rw [normalize, normalizeItems_eq_map]
    constructor
    · rintro (_ | ⟨length_le, emptyKey, emptyValues⟩)
      exact .array (by rwa [List.length_map] at length_le) (flagAt_map_normalize_iff.1 emptyKey)
        (flagAt_map_normalize_iff.1 emptyValues)
    · rintro (_ | ⟨length_le, emptyKey, emptyValues⟩)
      exact .array (by rwa [List.length_map]) (flagAt_map_normalize_iff.2 emptyKey)
        (flagAt_map_normalize_iff.2 emptyValues)
  | null => exact Iff.rfl
  | bool b => exact Iff.rfl
  | number n => exact Iff.rfl
  | text s => exact Iff.rfl

end Json

namespace Policy

open Json (FlagAmong FlagAt)

/-! ## Decoding documents -/

/-- **A flag that may be missing** comes to what the entries say of it. -/
theorem exists_mayYield_flag_iff {name : String} {entries : List (String × Json)} {flag : Bool} :
    (∃ x, Field.MayYield ⟨name, flagOfJson⟩ none entries x ∧ x.getD false = flag)
      ↔ FlagAmong entries name flag := by
  constructor
  · rintro ⟨x, hx, rfl⟩
    cases x with
    | none => exact Or.inr ⟨hx.2, rfl⟩
    | some b =>
      obtain ⟨value, hentry, hvalue⟩ := hx
      rw [flagOfJson_eq_ok_iff.1 hvalue] at hentry
      exact Or.inl hentry
  · rintro (hentry | ⟨hnone, rfl⟩)
    · exact ⟨some flag, ⟨_, hentry, rfl⟩, rfl⟩
    · exact ⟨none, ⟨rfl, hnone⟩, rfl⟩

/-- **The policy of an object** is what its entries say of the flags. -/
theorem ofJson_object_eq_ok_iff {entries : List (String × Json)} {policy : Policy} :
    ofJson (.object entries) = .ok policy
      ↔ FlagAmong entries emptyKeyName policy.allowEmptyKey
        ∧ FlagAmong entries emptyValuesName policy.allowEmptyValues := by
  have hnames : emptyKeyName ≠ emptyValuesName := by decide
  rw [ofJson, bind_eq_ok_iff, ← exists_mayYield_flag_iff, ← exists_mayYield_flag_iff]
  constructor
  · rintro ⟨⟨x, y⟩, hloop, hpolicy⟩
    obtain rfl := Except.ok.inj hpolicy
    obtain ⟨hx, hy⟩ := (fieldsAmong_eq_ok_iff hnames).1 hloop
    exact ⟨⟨x, hx, rfl⟩, y, hy, rfl⟩
  · rintro ⟨⟨x, hx, hkey⟩, y, hy, hvalues⟩
    refine ⟨(x, y), (fieldsAmong_eq_ok_iff hnames).2 ⟨hx, hy⟩, ?_⟩
    show Except.ok (⟨x.getD false, y.getD false⟩ : Policy) = _
    rw [hkey, hvalues]

/-- **The policy of an array** is what its items say of the flags, if there are
no more than two. -/
theorem ofJson_array_eq_ok_iff {items : List Json} {policy : Policy} :
    ofJson (.array items) = .ok policy
      ↔ items.length ≤ 2 ∧ FlagAt items 0 policy.allowEmptyKey
        ∧ FlagAt items 1 policy.allowEmptyValues := by
  obtain ⟨a, b⟩ := policy
  match items with
  | [] => simp [ofJson, ofFlags, FlagAt, eq_comm (a := false)]
  | [x] =>
    simp [ofJson, ofFlags, FlagAt, bind_eq_ok_iff, eq_comm (a := false), -Bool.exists_bool]
  | [x, y] => simp [ofJson, ofFlags, FlagAt, bind_eq_ok_iff]
  | x :: y :: z :: more => simp [ofJson, bind_eq_ok_iff]

/-- **A policy is decoded** exactly from the documents that denote it. -/
theorem ofJson_eq_ok_iff {j : Json} {policy : Policy} :
    ofJson j = .ok policy ↔ j.DenotesPolicy policy := by
  cases j with
  | object entries =>
    rw [ofJson_object_eq_ok_iff]
    constructor
    · rintro ⟨emptyKey, emptyValues⟩
      exact .object emptyKey emptyValues
    · rintro (⟨emptyKey, emptyValues⟩ | _)
      exact ⟨emptyKey, emptyValues⟩
  | array items =>
    rw [ofJson_array_eq_ok_iff]
    constructor
    · rintro ⟨length_le, emptyKey, emptyValues⟩
      exact .array length_le emptyKey emptyValues
    · rintro (_ | ⟨length_le, emptyKey, emptyValues⟩)
      exact ⟨length_le, emptyKey, emptyValues⟩
  | null => exact iff_of_false nofun nofun
  | bool b => exact iff_of_false nofun nofun
  | number n => exact iff_of_false nofun nofun
  | text s => exact iff_of_false nofun nofun

/-! ## Decoding texts -/

variable {levels : Nat}

theorem flagOfOutline_of_toJson? {o : Outline} {j : Json} (h : o.toJson? levels = some j) :
    (flagOfOutline o).toOption = (flagOfJson j).toOption := by
  rw [flagOfOutline, Outline.head_bind_of_toJson? h, toOption_asData]
  rfl

theorem flag_readBy (name : String) :
    Field.ReadBy ⟨name, flagOfJson⟩ ⟨name, flagOfOutline⟩ levels where
  name_eq := rfl
  decode_eq := flagOfOutline_of_toJson?

/-- **The policy of an outline** is that of its document. -/
theorem toOption_ofOutline {o : Outline} {j : Json} (h : o.toJson? levels = some j) :
    (ofOutline o).toOption = (ofJson j).toOption := by
  cases o with
  | object entries closed =>
    obtain ⟨below, es, rfl, hes, rfl, rfl⟩ := Outline.toJson?_object_eq_some_iff.1 h
    rw [ofOutline, ofJson, toOption_bind, toOption_bind,
      toOption_fieldsAmong (flag_readBy _) (flag_readBy _) none none hes]
    rfl
  | array items closed =>
    obtain ⟨below, js, rfl, hitems, rfl, rfl⟩ := Outline.toJson?_array_eq_some_iff.1 h
    match items with
    | [] =>
      obtain rfl := Option.some.inj hitems
      rfl
    | [x] =>
      obtain ⟨i, others, hi, hrest, rfl⟩ := Outline.itemsToJson?_cons_eq_some_iff.1 hitems
      obtain rfl := Option.some.inj hrest
      rw [ofOutline, ofJson, toOption_bind, toOption_bind, flagOfOutline_of_toJson? hi]
      rfl
    | x :: y :: more =>
      obtain ⟨i, _, hi, hrest, rfl⟩ := Outline.itemsToJson?_cons_eq_some_iff.1 hitems
      obtain ⟨k, others, hk, hmore, rfl⟩ := Outline.itemsToJson?_cons_eq_some_iff.1 hrest
      rw [ofOutline, ofJson]
      exact toOption_inOrder (flagOfOutline_of_toJson? hi) (flagOfOutline_of_toJson? hk) hmore
        (fun a b => ofFlags (some a) (some b)) _
  | torn => cases h
  | null =>
    obtain rfl := Option.some.inj h
    rfl
  | bool b =>
    obtain rfl := Option.some.inj h
    rfl
  | numeral n =>
    obtain ⟨number, -, rfl⟩ := Option.map_eq_some_iff.1 h
    exact toOption_bind_error _ _
  | text pieces =>
    obtain ⟨s, -, rfl⟩ := Option.map_eq_some_iff.1 h
    exact toOption_bind_error _ _

/-- **A policy allows what its document allows, and no more.** It is decoded
exactly from the documents that denote it, so each of its flags is on only
where the document says true of it. From a text that has a document, with
neither flag twice at the root, it is decoded exactly when it is decoded from
the document. -/
theorem ofJson_eq_ok_iff_denotesPolicy (j : Json) (policy : Policy) :
    (ofJson j = .ok policy ↔ j.DenotesPolicy policy)
      ∧ (∀ text, Json.ofText? text = some j →
        (∀ i, (Reading.ofText text).toJson? = some i → i.FlagsOnce) →
        (ofText text = .ok policy ↔ ofJson j = .ok policy))
      ∧ (ofJson j = .ok policy →
        (policy.allowEmptyKey = true → j.Affirms emptyKeyName 0)
          ∧ (policy.allowEmptyValues = true → j.Affirms emptyValuesName 1)) := by
  refine ⟨ofJson_eq_ok_iff, fun text htext honce => ?_, fun h => (ofJson_eq_ok_iff.1 h).affirms⟩
  obtain ⟨i, hi, rfl⟩ := Option.map_eq_some_iff.1 htext
  have hread : ofText text = .ok policy ↔ ofJson i = .ok policy :=
    Reading.decode_eq_ok_iff hi toOption_ofOutline
  rw [hread, ofJson_eq_ok_iff, ofJson_eq_ok_iff, Json.denotesPolicy_normalize_iff (honce i hi)]

/-- A flag whose name is misspelt is passed over, and so is one inside another
entry, and an entry that comes twice. What is left is the second flag. -/
theorem ofJson_eq_ok_iff_denotesPolicy_of_misspelt_flag :
    let text := "\x7b\"x\": [], \"allow_empty_values\": true,
      \"x\": \x7b\"allow_empty_key\": true\x7d, \"allow_empty_keys\": true\x7d"
    let j : Json := .object [("allow_empty_keys", .bool true), ("allow_empty_values", .bool true),
      ("x", .object [("allow_empty_key", .bool true)])]
    let policy : Policy := ⟨false, true⟩
    Json.ofText? text = some j
      ∧ (∀ i, (Reading.ofText text).toJson? = some i → i.FlagsOnce)
      ∧ j.DenotesPolicy policy ∧ ofText text = .ok policy
      ∧ j.Affirms emptyValuesName 1 ∧ ¬ j.Affirms emptyKeyName 0 := by
  intro text j policy
  have hdocument : (Reading.ofText text).toJson? = some (.object [
      ("x", .array []), ("allow_empty_values", .bool true),
      ("x", .object [("allow_empty_key", .bool true)]), ("allow_empty_keys", .bool true)]) := by
    rw [Reading.ofText]
    simp only [text, String.reduceToList]
    cbv
  have hread : Json.ofText? text = some j := by
    rw [Json.ofText?, hdocument]
    rfl
  have honce : ∀ i, (Reading.ofText text).toJson? = some i → i.FlagsOnce := by
    intro i hi entries hentries
    obtain rfl := Option.some.inj (hdocument.symm.trans hi)
    obtain rfl := Json.object.inj hentries
    exact ⟨by decide, by decide⟩
  have hpolicy : ofJson j = .ok policy := rfl
  obtain ⟨hdenotes, htext, haffirms⟩ := ofJson_eq_ok_iff_denotesPolicy j policy
  exact ⟨hread, honce, hdenotes.1 hpolicy, (htext text hread honce).2 hpolicy,
    (haffirms hpolicy).2 rfl, fun h => absurd (congrArg List.length h) (by decide)⟩

end Policy

end FilterTree
