import FilterTree.Proofs.Checking
import FilterTree.Proofs.Documents

/-!
# The grammar of filters

Which documents describe a filter, and which filter it is, said without a
decoder. A **node** (`Json.Denotes`) is an object with an operator under
`op` and the fields of that operator, each once, whatever else is in it; or
it is an array of an operator and those fields in their order, and nothing
else. An **operator** (`Json.DenotesOperator`) goes by its name, and below
another node also by its place in the order. The **parts** of a node
(`Json.PartsDenote`) are a key and a value, a key and a list of values, a
list of nodes, or one node.

The decoder accepts exactly that grammar: it finds the shape of a tree
where the document denotes that tree (`Predicate.ofNode_eq_ok_iff`), and it
goes on to return the tree when its leaves mean something
(`Predicate.ofCanonical_eq_ok_iff_denotes`). Both directions are needed. One
says that every spelling is understood, the other that nothing else is.
-/

namespace FilterTree

/-- **The fields of a node**, by their names and in the order in which an
array has them. -/
def Operator.fields : Operator → List String
  | .compare _ => ["key", "value"]
  | .member => ["key", "values"]
  | .join _ => ["conditions"]
  | .negate => ["condition"]

namespace Json

/-- **What a document denotes as a value.** An integer is a signed word if
one can hold it and an unsigned word otherwise; arrays and objects denote
nothing. -/
inductive DenotesValue : Json → Value → Prop
  /-- The null is a value. -/
  | null : DenotesValue .null .null
  /-- A boolean is a value. -/
  | bool (b : Bool) : DenotesValue (.bool b) (.bool b)
  /-- An integer that a signed word holds. -/
  | int (n : Int64) (lower : Number.least ≤ n.toInt) (upper : n.toInt < Number.bound) :
    DenotesValue (.number (.integer n.toInt lower upper)) (.int n)
  /-- An integer above all signed words. -/
  | uint (n : UInt64) (large : 0x8000000000000000 ≤ n.toNat) (lower : Number.least ≤ n.toNat)
    (upper : n.toNat < Number.bound) :
    DenotesValue (.number (.integer n.toNat lower upper)) (.uint n)
  /-- A double. -/
  | float (x : Double) : DenotesValue (.number (.float x)) (.float x)
  /-- A string. -/
  | text (s : String) : DenotesValue (.text s) (.text s)

/-- **What a document denotes as an operator.** -/
inductive DenotesOperator : Json → Place → Operator → Prop
  /-- The name of the operator, anywhere. -/
  | name (place : Place) (operator : Operator) :
    DenotesOperator (.text operator.name) place operator
  /-- The place of the operator in the order, below another node. -/
  | index {n : Nat} {operator : Operator} (at_place : Operator.all[n]? = some operator)
    (lower : Number.least ≤ n) (upper : n < Number.bound) :
    DenotesOperator (.number (.integer n lower upper)) .child operator

mutual

/-- **What a document denotes as a node.** -/
inductive Denotes : Json → Place → Predicate → Prop
  /-- An object with the operator and its fields, each once, among any other
  entries. -/
  | object {place : Place} {entries : List (String × Json)} {tag : Json} {operator : Operator}
    {parts : List Json} {p : Predicate} (op : SoleEntry entries "op" tag)
    (denotes_op : tag.DenotesOperator place operator)
    (fields : List.Forall₂ (SoleEntry entries) operator.fields parts)
    (denotes_parts : PartsDenote operator parts p) : Denotes (.object entries) place p
  /-- An array of the operator and its fields in order. -/
  | array {place : Place} {tag : Json} {operator : Operator} {parts : List Json} {p : Predicate}
    (denotes_op : tag.DenotesOperator place operator)
    (denotes_parts : PartsDenote operator parts p) : Denotes (.array (tag :: parts)) place p

/-- **What the parts of a node denote** together with its operator. -/
inductive PartsDenote : Operator → List Json → Predicate → Prop
  /-- A key and the value to compare with. -/
  | compare {relation : Relation} {key : String} {j : Json} {v : Value} (value : j.DenotesValue v) :
    PartsDenote (.compare relation) [.text key, j] (.compare relation key v)
  /-- A key and the list of values to look up in. -/
  | member {key : String} {items : List Json} {vs : List Value}
    (values : List.Forall₂ DenotesValue items vs) :
    PartsDenote .member [.text key, .array items] (.member key vs)
  /-- The list of conditions. -/
  | join {connective : Connective} {items : List Json} {ps : List Predicate}
    (conditions : List.Forall₂ (fun j p => Denotes j .child p) items ps) :
    PartsDenote (.join connective) [.array items] (.join connective ps)
  /-- The condition. -/
  | negate {j : Json} {p : Predicate} (condition : Denotes j .child p) :
    PartsDenote .negate [j] (.negate p)

end

/-- What a document denotes as a list of values. -/
def DenotesValues (j : Json) (vs : List Value) : Prop :=
  ∃ items, j = .array items ∧ List.Forall₂ DenotesValue items vs

/-- What a document denotes as a list of nodes below another one. -/
def DenotesNodes (j : Json) (ps : List Predicate) : Prop :=
  ∃ items, j = .array items ∧ List.Forall₂ (fun j p => Denotes j .child p) items ps

/-! ## Operators and values -/

/-- **Decoding an operator** accepts what denotes one. -/
theorem ofHead_eq_ok_iff {place : Place} {j : Json} {operator : Operator} :
    Operator.ofHead place j.head = .ok operator ↔ j.DenotesOperator place operator := by
  constructor
  · intro h
    cases j with
    | text s =>
      simp only [head, Operator.ofHead] at h
      cases hs : Operator.ofName? s with
      | none =>
        rw [hs] at h
        cases h
      | some found =>
        rw [hs] at h
        obtain rfl : found = operator := Except.ok.inj h
        have hname := List.find?_some hs
        obtain rfl : found.name = s := of_decide_eq_true hname
        exact .name place found
    | number n =>
      cases n with
      | integer n lower upper =>
        simp only [head, Operator.ofHead] at h
        split at h
        · rename_i hplace
          obtain ⟨rfl, hn⟩ := hplace
          obtain ⟨n, rfl⟩ := Int.eq_ofNat_of_zero_le hn
          cases hat : Operator.ofIndex? n with
          | none =>
            simp only [Int.toNat_natCast, hat] at h
            cases h
          | some found =>
            simp only [Int.toNat_natCast, hat] at h
            obtain rfl : found = operator := Except.ok.inj h
            exact .index hat lower upper
        · cases h
      | float x => cases h
    | null => cases h
    | bool b => cases h
    | array items => cases h
    | object entries => cases h
  · intro h
    cases h with
    | name => simp only [head, Operator.ofHead, Operator.ofName?_name]
    | @index n _ hat lower upper =>
      have hindex : Operator.ofIndex? (n : Int).toNat = some operator := hat
      simp only [head, Operator.ofHead, hindex]
      rw [if_pos ⟨trivial, Int.natCast_nonneg n⟩]

theorem denotesValue_ofNumber (n : Number) : (number n).DenotesValue (Value.ofNumber n) := by
  cases n with
  | integer n lower upper =>
    rw [Value.ofNumber]
    split
    · rename_i hn
      obtain ⟨m, rfl⟩ : ∃ m : Int64, m.toInt = n :=
        ⟨Int64.ofInt n, Int64.toInt_ofInt_of_le lower hn⟩
      rw [Int64.ofInt_toInt]
      exact .int m lower upper
    · rename_i hn
      obtain ⟨n, rfl⟩ := Int.eq_ofNat_of_zero_le (show 0 ≤ n by omega)
      have hnat : (n : Int) < 0x10000000000000000 := upper
      obtain ⟨m, rfl⟩ : ∃ m : UInt64, m.toNat = n :=
        ⟨UInt64.ofNat n, UInt64.toNat_ofNat_of_lt' (show n < 0x10000000000000000 by omega)⟩
      rw [Int.toNat_natCast, UInt64.ofNat_toNat]
      exact .uint m (by omega) lower upper
  | float x => exact .float x

/-- **Decoding a value** accepts what denotes one. -/
theorem ofJson_eq_ok_iff {j : Json} {v : Value} : Value.ofJson j = .ok v ↔ j.DenotesValue v := by
  constructor
  · intro h
    cases j with
    | null =>
      obtain rfl : Value.null = v := Except.ok.inj h
      exact .null
    | bool b =>
      obtain rfl : Value.bool b = v := Except.ok.inj h
      exact .bool b
    | text s =>
      obtain rfl : Value.text s = v := Except.ok.inj h
      exact .text s
    | number n =>
      obtain rfl : Value.ofNumber n = v := Except.ok.inj h
      exact denotesValue_ofNumber n
    | array items => cases h
    | object entries => cases h
  · intro h
    cases h with
    | int n lower upper =>
      have hn : n.toInt < 0x8000000000000000 := Int64.toInt_lt n
      simp [Value.ofJson, head, Value.ofHead, Value.ofNumber, hn]
    | uint n large lower upper =>
      have hn : ¬ (n.toNat : Int) < 0x8000000000000000 := by omega
      simp [Value.ofJson, head, Value.ofHead, Value.ofNumber, hn]
    | null => rfl
    | bool b => rfl
    | float x => rfl
    | text s => rfl

/-- **Decoding a list of values** accepts an array of what denotes them. -/
theorem listOfJson_eq_ok_iff {j : Json} {vs : List Value} :
    Value.listOfJson j = .ok vs ↔ j.DenotesValues vs := by
  cases j with
  | array items =>
    rw [Value.listOfJson,
      decodeItems_eq_ok_iff Value.ofJson Value.ofJsons rfl fun _ _ => rfl]
    simp only [ofJson_eq_ok_iff, DenotesValues, array.injEq, exists_eq_left']
  | null => exact iff_of_false nofun nofun
  | bool b => exact iff_of_false nofun nofun
  | number n => exact iff_of_false nofun nofun
  | text s => exact iff_of_false nofun nofun
  | object entries => exact iff_of_false nofun nofun

end Json

/-! ## Nodes -/

namespace Predicate

open Json (SoleEntry DenotesValue PartsDenote)

/-- The loop for the operator of an object is that of one field. -/
theorem operatorAmong_eq_fieldAmong (place : Place) (found : Option Operator)
    (entries : List (String × Json)) :
    operatorAmong place found entries
      = fieldAmong ⟨"op", fun j => Operator.ofHead place j.head⟩ found entries := by
  induction entries generalizing found with
  | nil => rfl
  | cons entry rest ih =>
    rw [operatorAmong, fieldAmong]
    simp only [ih]

theorem conditionsAmong_eq_fieldAmong (found : Option (List Predicate))
    (entries : List (String × Json)) :
    conditionsAmong found entries = fieldAmong ⟨"conditions", ofConditions⟩ found entries := by
  induction entries generalizing found with
  | nil => rw [conditionsAmong, fieldAmong]
  | cons entry rest ih =>
    rw [conditionsAmong, fieldAmong]
    simp only [ih]

theorem conditionAmong_eq_fieldAmong (found : Option Predicate)
    (entries : List (String × Json)) :
    conditionAmong found entries = fieldAmong ⟨"condition", ofNode .child⟩ found entries := by
  induction entries generalizing found with
  | nil => rw [conditionAmong, fieldAmong]
  | cons entry rest ih =>
    rw [conditionAmong, fieldAmong]
    simp only [ih]

/-- Two parts among entries are there when each of them has one entry that
is decoded. -/
theorem partsAmong_eq_ok_iff {α β : Type} {first : Field Json DecodeFault α}
    {second : Field Json DecodeFault β} (hnames : first.name ≠ second.name)
    {entries : List (String × Json)} {a : α} {b : β} :
    partsAmong first second entries = .ok (a, b)
      ↔ first.Yields none entries a ∧ second.Yields none entries b := by
  show _ ↔ first.MayYield none entries (some a) ∧ second.MayYield none entries (some b)
  rw [← fieldsAmong_eq_ok_iff hnames]
  unfold partsAmong
  simp only [bind_eq_ok_iff, required_eq_ok_iff, Except.ok.injEq, Prod.mk.injEq]
  constructor
  · rintro ⟨⟨_, _⟩, h, _, rfl, _, rfl, rfl, rfl⟩
    exact h
  · intro h
    exact ⟨(some a, some b), h, a, rfl, b, rfl, rfl, rfl⟩

/-- Two parts in an array are there when it consists of them and both are
decoded. -/
theorem partsInOrder_eq_ok_iff {α β : Type} {operator : Operator}
    {first : Field Json DecodeFault α} {second : Field Json DecodeFault β} {parts : List Json}
    {a : α} {b : β} :
    partsInOrder operator first second parts = .ok (a, b)
      ↔ ∃ x y, parts = [x, y] ∧ first.decode x = .ok a ∧ second.decode y = .ok b := by
  match parts with
  | [] => exact iff_of_false nofun nofun
  | [x] =>
    rw [partsInOrder, bind_eq_ok_iff]
    exact iff_of_false nofun nofun
  | [x, y] =>
    simp only [partsInOrder, bind_eq_ok_iff, List.isEmpty_nil, if_true, Except.ok.injEq,
      Prod.mk.injEq]
    constructor
    · rintro ⟨_, ha, _, hb, rfl, rfl⟩
      exact ⟨x, y, rfl, ha, hb⟩
    · rintro ⟨_, _, ⟨rfl, rfl⟩, ha, hb⟩
      exact ⟨a, ha, b, hb, rfl, rfl⟩
  | x :: y :: z :: more =>
    simp only [partsInOrder, bind_eq_ok_iff]
    exact iff_of_false nofun nofun

/-- The part of a composite in an array is there when it is all of it and
is decoded. -/
theorem ofParts_single_eq_ok_iff {α : Type} {decode : Json → Except DecodeFault α} {x : Json}
    {more : List Json} {build : α → Predicate} {p : Predicate} :
    (decode x >>= fun a =>
        if more.isEmpty then Except.ok (build a)
        else .error (.wrongLength (1 + more.length) (.count 1))) = .ok p
      ↔ ∃ a, more = [] ∧ decode x = .ok a ∧ p = build a := by
  rw [bind_eq_ok_iff]
  cases more with
  | nil => simp [eq_comm]
  | cons y more => simp

/-- Two parts among entries are decoded like the values of their entries in
order. -/
theorem partsAmong_bind_eq_ok_iff {α β : Type} {operator : Operator}
    {first : Field Json DecodeFault α} {second : Field Json DecodeFault β}
    (hnames : first.name ≠ second.name) {entries : List (String × Json)}
    {build : α × β → Except DecodeFault Predicate} {p : Predicate} :
    partsAmong first second entries >>= build = .ok p
      ↔ ∃ parts, List.Forall₂ (SoleEntry entries) [first.name, second.name] parts
        ∧ partsInOrder operator first second parts >>= build = .ok p := by
  simp only [bind_eq_ok_iff, Prod.exists, partsAmong_eq_ok_iff hnames, partsInOrder_eq_ok_iff,
    Field.Yields]
  constructor
  · rintro ⟨a, b, ⟨⟨x, hx, ha⟩, y, hy, hb⟩, hp⟩
    exact ⟨[x, y], .cons hx (.cons hy .nil), a, b, ⟨x, y, rfl, ha, hb⟩, hp⟩
  · rintro ⟨_, hparts, a, b, ⟨x, y, rfl, ha, hb⟩, hp⟩
    obtain ⟨hx, hy⟩ : SoleEntry entries first.name x ∧ SoleEntry entries second.name y := by
      simpa using hparts
    exact ⟨a, b, ⟨⟨x, hx, ha⟩, y, hy, hb⟩, hp⟩

/-- The one part of a composite among entries is decoded like the value of
its entry. -/
theorem fieldAmong_bind_eq_ok_iff {α : Type} {field : Field Json DecodeFault α}
    {entries : List (String × Json)} {build : α → Except DecodeFault Predicate} {p : Predicate} :
    fieldAmong field none entries >>= build = .ok p
      ↔ ∃ x, SoleEntry entries field.name x ∧ field.decode x >>= build = .ok p := by
  simp only [bind_eq_ok_iff, fieldAmong_eq_ok_iff, Field.Yields]
  constructor
  · rintro ⟨a, ⟨x, hx, ha⟩, hp⟩
    exact ⟨x, hx, a, ha, hp⟩
  · rintro ⟨x, hx, a, ha, hp⟩
    exact ⟨a, ⟨x, hx, ha⟩, hp⟩

theorem exists_forall₂_singleton_iff {entries : List (String × Json)} {name : String}
    {P : List Json → Prop} :
    (∃ parts, List.Forall₂ (SoleEntry entries) [name] parts ∧ P parts)
      ↔ ∃ x, SoleEntry entries name x ∧ P [x] := by
  constructor
  · rintro ⟨_, hparts, hP⟩
    obtain ⟨x, _, hx, hnil, rfl⟩ := List.forall₂_cons_left_iff.1 hparts
    obtain rfl := List.forall₂_nil_left_iff.1 hnil
    exact ⟨x, hx, hP⟩
  · rintro ⟨x, hx, hP⟩
    exact ⟨[x], .cons hx .nil, hP⟩

/-- The node of an operator and its fields among entries. -/
def ofFields (operator : Operator) (entries : List (String × Json)) :
    Except DecodeFault Predicate :=
  match operator with
  | .compare relation =>
    partsAmong keyField valueField entries >>= fun parts => .ok (.compare relation parts.1 parts.2)
  | .member =>
    partsAmong keyField valuesField entries >>= fun parts => .ok (.member parts.1 parts.2)
  | .join connective =>
    fieldAmong ⟨"conditions", ofConditions⟩ none entries >>= fun ps => .ok (.join connective ps)
  | .negate => fieldAmong ⟨"condition", ofNode .child⟩ none entries >>= fun p => .ok (.negate p)

/-- An object is decoded in two steps, its operator and then its fields. -/
theorem ofNode_object (place : Place) (entries : List (String × Json)) :
    ofNode place (.object entries)
      = fieldAmong ⟨"op", fun j => Operator.ofHead place j.head⟩ none entries >>=
          fun operator => ofFields operator entries := by
  rw [ofNode, operatorAmong_eq_fieldAmong]
  refine congrArg _ (funext fun operator => ?_)
  cases operator with
  | compare relation => rfl
  | member => rfl
  | join connective =>
    rw [ofFields, ← conditionsAmong_eq_fieldAmong]
  | negate =>
    rw [ofFields, ← conditionAmong_eq_fieldAmong]

/-- **The parts of a node in an object** are the values of its fields: what
the loops over the entries decode is what is decoded from those in order. -/
theorem ofFields_eq_ok_iff {operator : Operator} {entries : List (String × Json)}
    {p : Predicate} :
    ofFields operator entries = .ok p
      ↔ ∃ parts, List.Forall₂ (SoleEntry entries) operator.fields parts
        ∧ ofParts operator parts = .ok p := by
  cases operator with
  | compare relation =>
    simp only [ofFields, ofParts]
    exact partsAmong_bind_eq_ok_iff (by decide)
  | member =>
    simp only [ofFields, ofParts]
    exact partsAmong_bind_eq_ok_iff (by decide)
  | join connective =>
    rw [ofFields, fieldAmong_bind_eq_ok_iff, Operator.fields, exists_forall₂_singleton_iff]
    simp only [ofParts, List.isEmpty_nil, if_true]
  | negate =>
    rw [ofFields, fieldAmong_bind_eq_ok_iff, Operator.fields, exists_forall₂_singleton_iff]
    simp only [ofParts, List.isEmpty_nil, if_true]

/-- **An object is decoded** to a tree when its operator and the fields of
that operator, each once among the entries, are. -/
theorem ofNode_object_eq_ok_iff {place : Place} {entries : List (String × Json)} {p : Predicate} :
    ofNode place (.object entries) = .ok p
      ↔ ∃ tag operator parts, SoleEntry entries "op" tag
        ∧ Operator.ofHead place tag.head = .ok operator
        ∧ List.Forall₂ (SoleEntry entries) operator.fields parts
        ∧ ofParts operator parts = .ok p := by
  simp only [ofNode_object, bind_eq_ok_iff, fieldAmong_eq_ok_iff, Field.Yields,
    ofFields_eq_ok_iff]
  constructor
  · rintro ⟨operator, ⟨tag, hop, htag⟩, parts, hfields, hp⟩
    exact ⟨tag, operator, parts, hop, htag, hfields, hp⟩
  · rintro ⟨tag, operator, parts, hop, htag, hfields, hp⟩
    exact ⟨operator, ⟨tag, hop, htag⟩, parts, hfields, hp⟩

/-- **The parts of a node in order** are decoded to a tree when they denote
it, given that for the nodes among them. -/
theorem ofParts_eq_ok_iff {operator : Operator} {parts : List Json} {p : Predicate}
    (hnode : ∀ j ∈ parts, ∀ q, ofNode .child j = .ok q ↔ j.Denotes .child q)
    (hnodes : ∀ j ∈ parts, ∀ ps, ofConditions j = .ok ps ↔ j.DenotesNodes ps) :
    ofParts operator parts = .ok p ↔ PartsDenote operator parts p := by
  cases operator with
  | compare relation =>
    simp only [ofParts, bind_eq_ok_iff, Prod.exists, partsInOrder_eq_ok_iff]
    constructor
    · rintro ⟨key, v, ⟨x, y, rfl, hx, hy⟩, ⟨rfl⟩⟩
      obtain rfl := asText_head_eq_ok_iff.1 hx
      exact .compare (Json.ofJson_eq_ok_iff.1 hy)
    · intro h
      cases h with
      | compare hv => exact ⟨_, _, ⟨_, _, rfl, rfl, Json.ofJson_eq_ok_iff.2 hv⟩, rfl⟩
  | member =>
    simp only [ofParts, bind_eq_ok_iff, Prod.exists, partsInOrder_eq_ok_iff]
    constructor
    · rintro ⟨key, vs, ⟨x, y, rfl, hx, hy⟩, ⟨rfl⟩⟩
      obtain rfl := asText_head_eq_ok_iff.1 hx
      obtain ⟨items, rfl, hitems⟩ := Json.listOfJson_eq_ok_iff.1 hy
      exact .member hitems
    · intro h
      cases h with
      | member hvs =>
        exact ⟨_, _, ⟨_, _, rfl, rfl, Json.listOfJson_eq_ok_iff.2 ⟨_, rfl, hvs⟩⟩, rfl⟩
  | join connective =>
    match parts with
    | [] => exact iff_of_false nofun nofun
    | x :: more =>
      rw [ofParts, ofParts_single_eq_ok_iff]
      constructor
      · rintro ⟨ps, rfl, hps, rfl⟩
        obtain ⟨items, rfl, hitems⟩ := (hnodes x List.mem_cons_self ps).1 hps
        exact .join hitems
      · intro h
        cases h with
        | join hps => exact ⟨_, rfl, (hnodes _ List.mem_cons_self _).2 ⟨_, rfl, hps⟩, rfl⟩
  | negate =>
    match parts with
    | [] => exact iff_of_false nofun nofun
    | x :: more =>
      rw [ofParts, ofParts_single_eq_ok_iff]
      constructor
      · rintro ⟨q, rfl, hq, rfl⟩
        exact .negate ((hnode x List.mem_cons_self q).1 hq)
      · intro h
        cases h with
        | negate hq => exact ⟨_, rfl, (hnode _ List.mem_cons_self _).2 hq, rfl⟩

/-- **Nodes and lists of nodes are decoded** to what they denote. The two
statements go together because the conditions of a join are not items of
the node but of an item or entry of it. -/
theorem ofNode_and_ofConditions_eq_ok_iff (j : Json) :
    (∀ place p, ofNode place j = .ok p ↔ j.Denotes place p)
      ∧ ∀ ps, ofConditions j = .ok ps ↔ j.DenotesNodes ps := by
  induction j with
  | array items ih =>
    refine ⟨fun place p => ?_, fun ps => ?_⟩
    · cases items with
      | nil => exact iff_of_false nofun nofun
      | cons tag parts =>
        have hparts : ∀ operator,
            ofParts operator parts = .ok p ↔ PartsDenote operator parts p := fun operator =>
          ofParts_eq_ok_iff (fun j hj => (ih j (List.mem_cons_of_mem tag hj)).1 .child)
            fun j hj => (ih j (List.mem_cons_of_mem tag hj)).2
        simp only [ofNode, bind_eq_ok_iff, Json.ofHead_eq_ok_iff, hparts]
        constructor
        · rintro ⟨operator, hop, hp⟩
          exact .array hop hp
        · intro h
          cases h with
          | array hop hp => exact ⟨_, hop, hp⟩
    · rw [ofConditions, decodeItems_eq_ok_iff (ofNode .child) ofNodes (by rw [ofNodes])
        (fun a rest => by rw [ofNodes])]
      simp only [forall₂_congr_of_mem fun j hj => (ih j hj).1 .child, Json.DenotesNodes,
        Json.array.injEq, exists_eq_left']
  | object entries ih =>
    refine ⟨fun place p => ?_, fun ps => iff_of_false nofun nofun⟩
    -- the parts are values of entries, so the statement holds of them
    have hparts : ∀ {operator : Operator} {parts : List Json},
        List.Forall₂ (SoleEntry entries) operator.fields parts →
          (ofParts operator parts = .ok p ↔ PartsDenote operator parts p) := by
      intro operator parts hfields
      have hmem : ∀ j ∈ parts, ∃ entry ∈ entries, j = entry.2 := by
        intro j hj
        obtain ⟨name, -, hname⟩ := exists_of_forall₂_of_mem_right hfields hj
        exact ⟨(name, j), hname.mem, rfl⟩
      refine ofParts_eq_ok_iff (fun j hj => ?_) fun j hj => ?_
      · obtain ⟨entry, hentry, rfl⟩ := hmem j hj
        exact (ih entry hentry).1 .child
      · obtain ⟨entry, hentry, rfl⟩ := hmem j hj
        exact (ih entry hentry).2
    rw [ofNode_object_eq_ok_iff]
    constructor
    · rintro ⟨tag, operator, parts, hop, htag, hfields, hp⟩
      exact .object hop (Json.ofHead_eq_ok_iff.1 htag) hfields ((hparts hfields).1 hp)
    · intro h
      cases h with
      | object hop htag hfields hp =>
        exact ⟨_, _, _, hop, Json.ofHead_eq_ok_iff.2 htag, hfields, (hparts hfields).2 hp⟩
  | null => exact ⟨fun place p => iff_of_false nofun nofun, fun ps => iff_of_false nofun nofun⟩
  | bool b => exact ⟨fun place p => iff_of_false nofun nofun, fun ps => iff_of_false nofun nofun⟩
  | number n => exact ⟨fun place p => iff_of_false nofun nofun, fun ps => iff_of_false nofun nofun⟩
  | text s => exact ⟨fun place p => iff_of_false nofun nofun, fun ps => iff_of_false nofun nofun⟩

/-- **The decoder finds the shape of a tree** where the document denotes that
tree, and nowhere else. -/
theorem ofNode_eq_ok_iff {place : Place} {j : Json} {p : Predicate} :
    ofNode place j = .ok p ↔ j.Denotes place p :=
  (ofNode_and_ofConditions_eq_ok_iff j).1 place p

/-- **Decoding accepts exactly the grammar** of filters with leaves that mean
something, and it builds the tree that the grammar says. -/
theorem ofCanonical_eq_ok_iff_denotes (j : Json) (p : Predicate) :
    (Traced.outcome (ofCanonical j).run).1 = .ok p ↔ j.Denotes .root p ∧ p.IsMeaningful := by
  rw [outcome_ofCanonical_eq_ok_iff, ofShape, ofNode_eq_ok_iff]

end Predicate

end FilterTree
