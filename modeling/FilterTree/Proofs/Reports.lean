import FilterTree.Proofs.FieldTexts
import FilterTree.Proofs.Writing
import FilterTree.Report

/-!
# Reports in texts and in documents

A report goes from one program to another, as a document or as the text of
one, and it has to arrive as it was sent, whatever its message says. The
message may hold quotes, backslashes and control characters. That is a fact
about written strings (`Json.Legible.toJson?_ofText_toText`). What is left
here is how reports are decoded.

`Json.DenotesReport` says which documents denote a report: objects and arrays
of two, with the kind of the failure by its name alone or as the only name of
an object that holds the null. A document is decoded to what it denotes, and a
text that has a document gives the same report (`Report.toOption_ofOutline`).
The two do not agree on faults. A kind of another form is a wrong type in a
document and a fault of the text in a text, and too many items are found by the
one when they are counted and by the other when the array does not end.

Names that come twice are again what keeps texts and documents apart, here at
two levels, for the object of a kind has names too. So it is asked that no
object repeats a name (`Report.ofText_toText_agrees_with_ofJson`).
-/

namespace FilterTree

theorem FailureKind.ofName?_eq_some_iff {name : String} {kind : FailureKind} :
    ofName? name = some kind ↔ name = kind.name := by
  constructor
  · intro h
    unfold ofName? at h
    have hfound := List.find?_some h
    exact (beq_iff_eq.1 hfound).symm
  · rintro rfl
    exact ofName?_name kind

namespace Json

/-! ## What a document denotes -/

/-- **The kind of failure that a document denotes**: its name, alone or as the
only name of an object that holds the null. -/
def DenotesKind (j : Json) (kind : FailureKind) : Prop :=
  j = .text kind.name ∨ j = .object [(kind.name, .null)]

/-- **The report that a document denotes.** -/
inductive DenotesReport : Json → Report → Prop
  /-- An object has both fields, among any other entries. -/
  | object {entries : List (String × Json)} {kind : Json} {report : Report}
    (kind_entry : SoleEntry entries Report.kindName kind)
    (kind_denotes : kind.DenotesKind report.kind)
    (message_entry : SoleEntry entries Report.messageName (.text report.message)) :
    DenotesReport (.object entries) report
  /-- An array has both fields in order and no other items. -/
  | array {kind message : Json} {report : Report} (kind_denotes : kind.DenotesKind report.kind)
    (message_eq : message = .text report.message) :
    DenotesReport (.array [kind, message]) report

@[simp] theorem normalize_eq_null_iff {j : Json} : j.normalize = .null ↔ j = .null := by
  cases j <;> simp [normalize]

/-- **A normal form with one entry** is that of a document with one entry, if no
object repeats a name. -/
theorem normalize_eq_object_singleton_iff {j : Json} (h : j.NamesOnce) {name : String}
    {value : Json} :
    j.normalize = .object [(name, value)]
      ↔ ∃ original, j = .object [(name, original)] ∧ value = original.normalize := by
  constructor
  · intro hnormal
    cases h with
    | @object entries nodup values_once =>
      have hentries : normalizeEntries entries = [(name, value)] := Json.object.inj hnormal
      have hperm := normalizeEntries_perm nodup
      rw [hentries, List.singleton_perm, eq_comm, List.map_eq_singleton_iff] at hperm
      obtain ⟨⟨other, original⟩, rfl, hentry⟩ := hperm
      obtain ⟨rfl, rfl⟩ := Prod.mk.inj hentry
      exact ⟨original, rfl, rfl⟩
    | null => cases hnormal
    | bool b => cases hnormal
    | number n => cases hnormal
    | text s => cases hnormal
    | array items_once => cases hnormal
  · rintro ⟨original, rfl, rfl⟩
    rfl

/-- A document and its normal form denote the same kind of failure, if no object
repeats a name. -/
theorem denotesKind_normalize_iff {j : Json} {kind : FailureKind} (h : j.NamesOnce) :
    j.normalize.DenotesKind kind ↔ j.DenotesKind kind := by
  refine or_congr normalize_eq_text_iff ?_
  rw [normalize_eq_object_singleton_iff h]
  constructor
  · rintro ⟨original, rfl, hnull⟩
    rw [normalize_eq_null_iff.1 hnull.symm]
  · intro hkind
    exact ⟨.null, hkind, rfl⟩

/-- **A document and its normal form** denote the same report, if no object
repeats a name. -/
theorem denotesReport_normalize_iff {j : Json} {report : Report} (h : j.NamesOnce) :
    j.normalize.DenotesReport report ↔ j.DenotesReport report := by
  cases h with
  | @object entries nodup values_once =>
    rw [normalize]
    constructor
    · rintro (⟨kind_entry, kind_denotes, message_entry⟩ | _)
      obtain ⟨kind, hkind, rfl⟩ := kind_entry.of_normalizeEntries (length_entriesOf_le_one nodup _)
      obtain ⟨message, hmessage, htext⟩ :=
        message_entry.of_normalizeEntries (length_entriesOf_le_one nodup _)
      rw [normalize_eq_text_iff.1 htext.symm] at hmessage
      exact .object hkind ((denotesKind_normalize_iff (values_once _ hkind.mem)).1 kind_denotes)
        hmessage
    · rintro (⟨kind_entry, kind_denotes, message_entry⟩ | _)
      exact .object kind_entry.normalizeEntries
        ((denotesKind_normalize_iff (values_once _ kind_entry.mem)).2 kind_denotes)
        message_entry.normalizeEntries
  | @array items items_once =>
    rw [normalize, normalizeItems_eq_map]
    constructor
    · intro hreport
      rcases items with _ | ⟨kind, _ | ⟨message, _ | _⟩⟩
      · cases hreport
      · cases hreport
      · obtain _ | ⟨kind_denotes, message_eq⟩ := hreport
        have hkind := items_once kind List.mem_cons_self
        exact .array ((denotesKind_normalize_iff hkind).1 kind_denotes)
          (normalize_eq_text_iff.1 message_eq)
      · cases hreport
    · rintro (_ | ⟨kind_denotes, rfl⟩)
      have hkind := items_once _ List.mem_cons_self
      exact .array ((denotesKind_normalize_iff hkind).2 kind_denotes) rfl
  | null => exact Iff.rfl
  | bool b => exact Iff.rfl
  | number n => exact Iff.rfl
  | text s => exact Iff.rfl

end Json

namespace Report

open Json (SoleEntry DenotesKind)

/-! ## Decoding documents -/

@[simp] theorem kindOfName_eq_ok_iff {name : String} {kind : FailureKind} :
    kindOfName name = .ok kind ↔ name = kind.name := by
  rw [← FailureKind.ofName?_eq_some_iff, kindOfName]
  cases FailureKind.ofName? name <;> simp

/-- **The kind of a document** is the one it denotes. -/
theorem kindOfJson_eq_ok_iff {j : Json} {kind : FailureKind} :
    kindOfJson j = .ok kind ↔ j.DenotesKind kind := by
  unfold DenotesKind
  cases j with
  | text s => simp [kindOfJson]
  | object entries =>
    match entries with
    | [(name, value)] => simp [kindOfJson, bind_eq_ok_iff, and_comm]
    | [] => simp [kindOfJson]
    | _ :: _ :: _ => simp [kindOfJson]
  | null => simp [kindOfJson]
  | bool b => simp [kindOfJson]
  | number n => simp [kindOfJson]
  | array items => simp [kindOfJson]

theorem ofFields_eq_ok_iff {kind : Option FailureKind} {message : Option String}
    {report : Report} :
    ofFields kind message = .ok report
      ↔ kind = some report.kind ∧ message = some report.message := by
  obtain ⟨k, m⟩ := report
  simp only [ofFields, bind_eq_ok_iff, required_eq_ok_iff, Except.ok.injEq, Report.mk.injEq]
  constructor
  · rintro ⟨_, rfl, _, rfl, rfl, rfl⟩
    exact ⟨rfl, rfl⟩
  · rintro ⟨rfl, rfl⟩
    exact ⟨_, rfl, _, rfl, rfl, rfl⟩

/-- **The report of an object** is that of the only entries of its fields. -/
theorem ofJson_object_eq_ok_iff {entries : List (String × Json)} {report : Report} :
    ofJson (.object entries) = .ok report ↔ (Json.object entries).DenotesReport report := by
  have hnames : kindName ≠ messageName := by decide
  rw [ofJson, bind_eq_ok_iff]
  constructor
  · rintro ⟨⟨kind, message⟩, hloop, hfields⟩
    obtain ⟨rfl, rfl⟩ := ofFields_eq_ok_iff.1 hfields
    obtain ⟨⟨k, hk, hkind⟩, m, hm, hmessage⟩ := (fieldsAmong_eq_ok_iff hnames).1 hloop
    rw [asText_head_eq_ok_iff.1 hmessage] at hm
    exact .object hk (kindOfJson_eq_ok_iff.1 hkind) hm
  · rintro (⟨hk, hkind, hm⟩ | _)
    refine ⟨(some report.kind, some report.message), (fieldsAmong_eq_ok_iff hnames).2 ?_,
      ofFields_eq_ok_iff.2 ⟨rfl, rfl⟩⟩
    exact ⟨⟨_, hk, kindOfJson_eq_ok_iff.2 hkind⟩, _, hm, rfl⟩

/-- **The report of an array** is that of its two items. -/
theorem ofJson_array_eq_ok_iff {items : List Json} {report : Report} :
    ofJson (.array items) = .ok report ↔ (Json.array items).DenotesReport report := by
  match items with
  | [] => exact iff_of_false nofun nofun
  | [x] =>
    rw [ofJson, bind_eq_ok_iff]
    exact iff_of_false nofun nofun
  | [x, y] =>
    rw [ofJson, bind_eq_ok_iff]
    constructor
    · rintro ⟨kind, hkind, htail⟩
      obtain ⟨message, hmessage, hreport⟩ := bind_eq_ok_iff.1 htail
      obtain rfl := Except.ok.inj hreport
      exact .array (kindOfJson_eq_ok_iff.1 hkind) (asText_head_eq_ok_iff.1 hmessage)
    · rintro (_ | ⟨hkind, rfl⟩)
      exact ⟨_, kindOfJson_eq_ok_iff.2 hkind, rfl⟩
  | x :: y :: z :: more =>
    rw [ofJson, bind_eq_ok_iff]
    refine iff_of_false ?_ nofun
    rintro ⟨kind, -, htail⟩
    obtain ⟨message, -, hreport⟩ := bind_eq_ok_iff.1 htail
    cases hreport

/-- **A report is decoded** exactly from the documents that denote it. -/
theorem ofJson_eq_ok_iff {j : Json} {report : Report} :
    ofJson j = .ok report ↔ j.DenotesReport report := by
  cases j with
  | object entries => exact ofJson_object_eq_ok_iff
  | array items => exact ofJson_array_eq_ok_iff
  | null => exact iff_of_false nofun nofun
  | bool b => exact iff_of_false nofun nofun
  | number n => exact iff_of_false nofun nofun
  | text s => exact iff_of_false nofun nofun

/-! ## Decoding texts -/

variable {o : Outline} {levels : Nat} {j : Json}

theorem toOption_messageOfOutline (h : o.toJson? levels = some j) :
    (messageOfOutline o).toOption = (messageOfJson j).toOption := by
  rw [messageOfOutline, Outline.head_bind_of_toJson? h, toOption_asData]
  rfl

/-- **A kind in a text** is decoded like its document, except for the fault. -/
theorem toOption_kindOfOutline (h : o.toJson? levels = some j) :
    (kindOfOutline o).toOption = (kindOfJson j).toOption := by
  cases o with
  | text pieces =>
    obtain ⟨s, hs, rfl⟩ := Option.map_eq_some_iff.1 h
    rw [kindOfOutline, hs]
    exact toOption_asData _
  | object entries closed =>
    obtain ⟨below, es, rfl, hes, rfl, rfl⟩ := Outline.toJson?_object_eq_some_iff.1 h
    cases entries with
    | nil =>
      obtain rfl := Option.some.inj hes
      rfl
    | cons entry more =>
      obtain ⟨pieces, value⟩ := entry
      obtain ⟨name, j, others, hname, hvalue, hmore, rfl⟩ :=
        Outline.entriesToJson?_cons_eq_some_iff.1 hes
      rw [kindOfOutline, hname, Outline.head_of_toJson? hvalue]
      show (asData (kindOfName name) >>= fun kind => asData (nothing j.head) >>= fun _ =>
        closing (true && more.isEmpty) >>= fun _ => .ok kind).toOption = _
      rw [toOption_bind, toOption_asData]
      cases more with
      | nil =>
        obtain rfl := Option.some.inj hmore
        rw [kindOfJson, toOption_bind]
        refine congrArg _ (funext fun kind => ?_)
        cases nothing j.head with
        | error fault => rfl
        | ok u => rfl
      | cons next rest =>
        -- the one finds that there are more entries, the other that the object does not end
        obtain ⟨_, _, _, -, -, -, rfl⟩ := Outline.entriesToJson?_cons_eq_some_iff.1 hmore
        cases kindOfName name with
        | error fault => rfl
        | ok kind => cases nothing j.head <;> rfl
  | array items closed =>
    obtain ⟨below, js, rfl, -, rfl, rfl⟩ := Outline.toJson?_array_eq_some_iff.1 h
    rfl
  | numeral n =>
    obtain ⟨number, -, rfl⟩ := Option.map_eq_some_iff.1 h
    rfl
  | torn => cases h
  | null =>
    obtain rfl := Option.some.inj h
    rfl
  | bool b =>
    obtain rfl := Option.some.inj h
    rfl

theorem kind_readBy : Field.ReadBy ⟨kindName, kindOfJson⟩ ⟨kindName, kindOfOutline⟩ levels where
  name_eq := rfl
  decode_eq := toOption_kindOfOutline

theorem message_readBy :
    Field.ReadBy ⟨messageName, messageOfJson⟩ ⟨messageName, messageOfOutline⟩ levels where
  name_eq := rfl
  decode_eq := toOption_messageOfOutline

/-- **The report of an outline** is that of its document. -/
theorem toOption_ofOutline (h : o.toJson? levels = some j) :
    (ofOutline o).toOption = (ofJson j).toOption := by
  cases o with
  | object entries closed =>
    obtain ⟨below, es, rfl, hes, rfl, rfl⟩ := Outline.toJson?_object_eq_some_iff.1 h
    rw [ofOutline, ofJson, toOption_bind, toOption_bind,
      toOption_fieldsAmong kind_readBy message_readBy none none hes]
    refine congrArg _ (funext fun fields => ?_)
    exact toOption_asData (ofFields fields.1 fields.2)
  | array items closed =>
    obtain ⟨below, js, rfl, hitems, rfl, rfl⟩ := Outline.toJson?_array_eq_some_iff.1 h
    match items with
    | [] =>
      obtain rfl := Option.some.inj hitems
      rfl
    | [x] =>
      obtain ⟨i, others, hi, hrest, rfl⟩ := Outline.itemsToJson?_cons_eq_some_iff.1 hitems
      obtain rfl := Option.some.inj hrest
      rw [ofOutline, ofJson, toOption_bind, toOption_kindOfOutline hi]
      cases kindOfJson i with
      | error fault => rfl
      | ok kind => rfl
    | x :: y :: more =>
      obtain ⟨i, _, hi, hrest, rfl⟩ := Outline.itemsToJson?_cons_eq_some_iff.1 hitems
      obtain ⟨k, others, hk, hmore, rfl⟩ := Outline.itemsToJson?_cons_eq_some_iff.1 hrest
      rw [ofOutline, ofJson]
      exact toOption_inOrder (toOption_kindOfOutline hi) (toOption_messageOfOutline hk) hmore
        Report.mk _
  | torn => cases h
  | null =>
    obtain rfl := Option.some.inj h
    rfl
  | bool b =>
    obtain rfl := Option.some.inj h
    rfl
  | numeral n =>
    obtain ⟨number, -, rfl⟩ := Option.map_eq_some_iff.1 h
    exact toOption_bind_error _ _
  | text pieces =>
    obtain ⟨s, -, rfl⟩ := Option.map_eq_some_iff.1 h
    exact toOption_bind_error _ _

/-! ## Arriving as sent -/

/-- **The document of a report** denotes the report. -/
theorem toJson_denotesReport (report : Report) : report.toJson.DenotesReport report := by
  have hkind : Json.DenotesKind (.text report.kind.name) report.kind := Or.inl rfl
  exact .object rfl hkind rfl

/-- **The text of a report** has the document of the report. -/
theorem toJson?_ofText_toText (report : Report) :
    (Reading.ofText report.toJson.toText).toJson? = some report.toJson := by
  have hlegible : report.toJson.Legible := by
    refine .object ?_
    simp only [List.forall_mem_cons]
    exact ⟨.text _, .text _, List.forall_mem_nil _⟩
  have hnesting : report.toJson.nesting ≤ maxLevels := by
    show 1 ≤ 127
    decide
  rw [hlegible.toJson?_ofText_toText, if_pos hnesting]

/-- **A report is decoded from a text** as from the document, entries as they
were written. -/
theorem ofText_eq_ok_iff_of_toJson? {text : String} {report : Report}
    (h : (Reading.ofText text).toJson? = some j) :
    ofText text = .ok report ↔ ofJson j = .ok report :=
  Reading.decode_eq_ok_iff h toOption_ofOutline

/-- **Reports arrive as they were sent, by either way.** The text of a report
has the document of the report, and the report is decoded from both. Any text
that has a document and repeats no name in an object gives the same report as
the document, or as little, and that is the one which the document denotes. -/
theorem ofText_toText_agrees_with_ofJson (report : Report) :
    (ofText report.toJson.toText = .ok report
        ∧ Json.ofText? report.toJson.toText = some report.toJson
        ∧ ofJson report.toJson = .ok report)
      ∧ ∀ text j, Json.ofText? text = some j →
        (∀ i, (Reading.ofText text).toJson? = some i → i.NamesOnce) →
        (ofText text = .ok report ↔ ofJson j = .ok report)
          ∧ (ofJson j = .ok report ↔ j.DenotesReport report) := by
  have hdocument : ofJson report.toJson = .ok report :=
    ofJson_eq_ok_iff.2 report.toJson_denotesReport
  refine ⟨⟨(ofText_eq_ok_iff_of_toJson? report.toJson?_ofText_toText).2 hdocument, ?_, hdocument⟩,
    fun text j htext honce => ⟨?_, ofJson_eq_ok_iff⟩⟩
  · rw [Json.ofText?, toJson?_ofText_toText, Option.map_some, normalize_toJson]
  · obtain ⟨i, hi, rfl⟩ := Option.map_eq_some_iff.1 htext
    rw [ofText_eq_ok_iff_of_toJson? hi, ofJson_eq_ok_iff, ofJson_eq_ok_iff,
      Json.denotesReport_normalize_iff (honce i hi)]

/-- A message with a quote, a backslash and a line end is read in front of the
kind, which is the only name of an object, with an entry between them that says
nothing. -/
theorem ofText_toText_agrees_with_ofJson_of_late_kind :
    let text := "\x7b\"message\": \"a \\\"b\\\\ \\n\", \"id\": [null],
      \"kind\": \x7b\"Decode\": null\x7d\x7d"
    let j : Json := .object [("id", .array [.null]), ("kind", .object [("Decode", .null)]),
      ("message", .text "a \"b\\ \n")]
    let report : Report := ⟨.decode, "a \"b\\ \n"⟩
    Json.ofText? text = some j
      ∧ (∀ i, (Reading.ofText text).toJson? = some i → i.NamesOnce)
      ∧ j.DenotesReport report ∧ ofJson j = .ok report ∧ ofText text = .ok report
      ∧ ofText report.toJson.toText = .ok report := by
  intro text j report
  have hdocument : (Reading.ofText text).toJson? = some (.object [
      ("message", .text "a \"b\\ \n"), ("id", .array [.null]),
      ("kind", .object [("Decode", .null)])]) := by
    rw [Reading.ofText]
    simp only [text, String.reduceToList]
    cbv
  have hread : Json.ofText? text = some j := by
    rw [Json.ofText?, hdocument]
    rfl
  have honce : ∀ i, (Reading.ofText text).toJson? = some i → i.NamesOnce := by
    intro i hi
    obtain rfl := Option.some.inj (hdocument.symm.trans hi)
    refine .object (by decide) ?_
    simp only [List.forall_mem_cons]
    refine ⟨.text _, .array ?_, .object (by decide) ?_, List.forall_mem_nil _⟩
    · exact List.forall_mem_singleton.2 .null
    · exact List.forall_mem_singleton.2 .null
  have hreport : ofJson j = .ok report := rfl
  obtain ⟨⟨hback, -, -⟩, hagree⟩ := ofText_toText_agrees_with_ofJson report
  obtain ⟨htext, hdenotes⟩ := hagree text j hread honce
  exact ⟨hread, honce, hdenotes.1 hreport, hreport, htext.2 hreport, hback⟩

end Report

end FilterTree
