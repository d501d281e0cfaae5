import FilterTree.Proofs.FinitePatterns
import FilterTree.Proofs.LeafConstruction
import Mathlib.Data.List.Forall2

/-!
# Requests for leaves

Who asks for a leaf gives an operator, a key and operands, and the policy
either grants the request or refuses it. Both are said here without an order
of checks. A request is **granted** values (`Policy.Grants`) if the key may
stand, each operand has its value and the list may be as short as it is. It
is **refused** for one failure (`Policy.Refuses`), and where several things
are wrong the key goes before the operands: a refused key is reported whatever
the operands are, a number that is not finite only under a key that may stand.
An empty list has no operands, so nothing else can be wrong with it.

A build **settles** a request (`Build.Settles`) if it does what has been
decided and says so: nothing is logged when the leaf is given, and when it is
not, then the failure that is returned is logged, once and as the only event.
The main statement is that all leaves are built in this way, and that a
policy which allows more grants the same requests the same leaves, and others
besides (`Policy.settles_requests`).
-/

namespace FilterTree

/-- **A build that settles a question**, of what is granted and which failures
are refusals. -/
structure Build.Settles {α : Type} (build : Build α) (Granted : α → Prop)
    (Refused : Failure → Prop) : Prop where
  /-- What is granted is given, and nothing is logged. -/
  ok_iff : ∀ log a, build.run log = (.ok a, log) ↔ Granted a
  /-- A refusal is returned, and logged as one more event. -/
  error_iff : ∀ log failure,
    build.run log = (.error failure, log ++ [.rejected failure]) ↔ Refused failure
  /-- There is an answer. -/
  decided : (∃ a, Granted a) ∨ ∃ failure, Refused failure

/-- What a settled build gives has been granted. -/
theorem Build.Settles.granted_of_run_eq_ok {α : Type} {build : Build α} {Granted : α → Prop}
    {Refused : Failure → Prop} (h : build.Settles Granted Refused) {log : List Event} {a : α}
    (hok : (build.run log).1 = .ok a) : Granted a := by
  rcases h.decided with ⟨b, hb⟩ | ⟨failure, hfailure⟩
  · rw [(h.ok_iff log b).2 hb] at hok
    obtain rfl : b = a := Except.ok.inj hok
    exact hb
  · rw [(h.error_iff log failure).2 hfailure] at hok
    cases hok

/-- A build settles a question however it is put. -/
theorem Build.Settles.congr {α : Type} {build : Build α} {Granted Granted' : α → Prop}
    {Refused Refused' : Failure → Prop} (h : build.Settles Granted Refused)
    (hgranted : ∀ a, Granted a ↔ Granted' a)
    (hrefused : ∀ failure, Refused failure ↔ Refused' failure) :
    build.Settles Granted' Refused' where
  ok_iff log a := (h.ok_iff log a).trans (hgranted a)
  error_iff log failure := (h.error_iff log failure).trans (hrefused failure)
  decided := h.decided.imp (fun ⟨a, ha⟩ => ⟨a, (hgranted a).1 ha⟩)
    fun ⟨failure, hfailure⟩ => ⟨failure, (hrefused failure).1 hfailure⟩

/-- A ruling settles what its objection stands for. -/
theorem Build.settles_ruling {α : Type} {objection : Option Failure} {a : α} {Granted : α → Prop}
    {Refused : Failure → Prop} (hgranted : ∀ b, objection = none ∧ b = a ↔ Granted b)
    (hrefused : ∀ failure, objection = some failure ↔ Refused failure) :
    (Build.ruling objection a).Settles Granted Refused := by
  cases objection with
  | none =>
    refine ⟨fun log b => ?_, fun log failure => ?_, Or.inl ⟨a, (hgranted a).1 ⟨rfl, rfl⟩⟩⟩
    · show (Except.ok a, log) = (Except.ok b, log) ↔ _
      rw [← hgranted, Prod.mk.injEq, Except.ok.injEq]
      simp [eq_comm]
    · exact iff_of_false nofun fun h => absurd ((hrefused failure).2 h) nofun
  | some failure =>
    refine ⟨fun log b => ?_, fun log other => ?_, Or.inr ⟨failure, (hrefused failure).1 rfl⟩⟩
    · exact iff_of_false nofun fun h => absurd ((hgranted b).2 h).1 nofun
    · show (Except.error failure, log ++ [.rejected failure])
        = (Except.error other, log ++ [.rejected other]) ↔ _
      rw [← hrefused, Option.some.injEq, Prod.mk.injEq, Except.error.injEq]
      exact and_iff_left_of_imp fun h => by rw [h]

namespace Policy

/-- **A policy that allows more** than another one: it allows whatever the
other one does. -/
instance : LE Policy where
  le policy larger := (policy.allowEmptyKey = true → larger.allowEmptyKey = true)
    ∧ (policy.allowEmptyValues = true → larger.allowEmptyValues = true)

/-- **A key that may stand.** -/
def AllowsKey (policy : Policy) (key : String) : Prop :=
  key ≠ "" ∨ policy.allowEmptyKey = true

/-- **The values granted** to a request. -/
structure Grants (policy : Policy) (key : String) (operands : List Operand)
    (values : List Value) : Prop where
  /-- The key may stand. -/
  key_allowed : policy.AllowsKey key
  /-- Each operand has its value, in order. -/
  values_eq : List.Forall₂ (fun operand value => operand.toValue? = some value) operands values
  /-- The list may be empty if it is. -/
  list_allowed : operands ≠ [] ∨ policy.allowEmptyValues = true

/-- **The failure for which a request is refused.** -/
inductive Refuses (policy : Policy) (operator : Operator) (key : String)
    (operands : List Operand) : Failure → Prop
  /-- The key may not stand, whatever the operands are. -/
  | emptyKey (key_refused : ¬ policy.AllowsKey key) :
    Refuses policy operator key operands (.emptyKey operator)
  /-- The key may stand, but some operand is a number that is not finite. -/
  | notFinite (key_allowed : policy.AllowsKey key) {operand : Operand} (mem : operand ∈ operands)
    (not_finite : operand.IsNotFinite) :
    Refuses policy operator key operands (.notFinite operator key)
  /-- The key may stand, but there are no operands and there must be some. -/
  | emptyValues (key_allowed : policy.AllowsKey key) (operands_eq : operands = [])
    (list_refused : policy.allowEmptyValues = false) :
    Refuses policy operator key operands (.emptyValues key)

/-! ## Objections -/

/-- **What stands against a request**: the key, or else the first operand
without a value, or else the length of the list. -/
def requestObjection? (policy : Policy) (operator : Operator) (key : String)
    (operands : List Operand) : Option Failure :=
  (policy.keyObjection? operator key).or
    ((operands.findSome? (operandObjection? operator key)).or
      (policy.valuesObjection? key (operands.filterMap Operand.toValue?)))

/-- What stands against one operand stands against the list of it. -/
theorem requestObjection?_singleton (policy : Policy) (operator : Operator) (key : String)
    (operand : Operand) :
    policy.requestObjection? operator key [operand]
      = (policy.keyObjection? operator key).or (operandObjection? operator key operand) := by
  rw [requestObjection?, List.findSome?_singleton, operandObjection?]
  cases hvalue : operand.toValue? with
  | none => rfl
  | some value =>
    rw [List.filterMap_cons_some hvalue, valuesObjection?, if_neg (Option.some_ne_none value),
      if_neg fun h => absurd h.1 (List.cons_ne_nil _ _)]
    rfl

variable {policy : Policy} {operator : Operator} {key : String} {operands : List Operand}

theorem keyObjection?_eq_none_iff_allowsKey :
    policy.keyObjection? operator key = none ↔ policy.AllowsKey key := by
  rw [keyObjection?_eq_none_iff, AllowsKey]
  tauto

theorem keyObjection?_eq_some_iff {failure : Failure} :
    policy.keyObjection? operator key = some failure
      ↔ ¬ policy.AllowsKey key ∧ failure = .emptyKey operator := by
  rw [keyObjection?, Option.ite_none_right_eq_some, Option.some.injEq, AllowsKey, not_or,
    not_ne_iff, Bool.not_eq_true, eq_comm (a := failure)]

theorem operandObjection?_eq_some_iff {operand : Operand} {failure : Failure} :
    operandObjection? operator key operand = some failure
      ↔ operand.IsNotFinite ∧ failure = .notFinite operator key := by
  rw [operandObjection?, Option.ite_none_right_eq_some, Option.some.injEq,
    Operand.toValue?_eq_none_iff, eq_comm (a := failure)]

/-- Operands are objected to if one of them is not finite. -/
theorem findSome?_operandObjection?_eq_some_iff {failure : Failure} :
    operands.findSome? (operandObjection? operator key) = some failure
      ↔ (∃ operand ∈ operands, operand.IsNotFinite) ∧ failure = .notFinite operator key := by
  have honly : ∀ other, operands.findSome? (operandObjection? operator key) = some other →
      (∃ operand ∈ operands, operand.IsNotFinite) ∧ other = .notFinite operator key := by
    intro other hother
    obtain ⟨operand, hmem, hoperand⟩ := List.exists_of_findSome?_eq_some hother
    obtain ⟨hfinite, hfailure⟩ := operandObjection?_eq_some_iff.1 hoperand
    exact ⟨⟨operand, hmem, hfinite⟩, hfailure⟩
  refine ⟨honly failure, ?_⟩
  -- every objection to an operand is the same one, so it does not matter which is found
  rintro ⟨⟨operand, hmem, hfinite⟩, rfl⟩
  cases hfound : operands.findSome? (operandObjection? operator key) with
  | none =>
    have hvalue := findSome?_operandObjection?_eq_none_iff.1 hfound operand hmem
    exact absurd (Operand.toValue?_eq_none_iff.2 hfinite) hvalue
  | some other => rw [(honly other hfound).2]

/-- Operands that have the values of a list, one by one, have no others. -/
theorem forall₂_toValue?_iff {values : List Value} :
    List.Forall₂ (fun operand value => operand.toValue? = some value) operands values
      ↔ (∀ operand ∈ operands, operand.toValue? ≠ none)
        ∧ values = operands.filterMap Operand.toValue? := by
  induction operands generalizing values with
  | nil =>
    rw [List.forall₂_nil_left_iff, List.filterMap_nil]
    exact (and_iff_right (List.forall_mem_nil _)).symm
  | cons operand operands ih =>
    rw [List.forall₂_cons_left_iff, List.forall_mem_cons]
    simp only [ih]
    cases hvalue : operand.toValue? with
    | none => simp
    | some value =>
      rw [List.filterMap_cons_some hvalue]
      constructor
      · rintro ⟨_, _, ⟨rfl⟩, ⟨hall, rfl⟩, rfl⟩
        exact ⟨⟨Option.some_ne_none value, hall⟩, rfl⟩
      · rintro ⟨⟨-, hall⟩, rfl⟩
        exact ⟨value, _, rfl, ⟨hall, rfl⟩, rfl⟩

theorem forall₂_toValue?_eq_nil_iff {values : List Value}
    (h : List.Forall₂ (fun operand value => operand.toValue? = some value) operands values) :
    values = [] ↔ operands = [] := by
  cases h with
  | nil => exact iff_of_true rfl rfl
  | cons _ _ => exact iff_of_false (List.cons_ne_nil _ _) (List.cons_ne_nil _ _)

/-- **Nothing stands against a request** that is granted values. -/
theorem requestObjection?_eq_none_and_iff {values : List Value} :
    policy.requestObjection? operator key operands = none
        ∧ values = operands.filterMap Operand.toValue?
      ↔ policy.Grants key operands values := by
  rw [requestObjection?, Option.or_eq_none_iff, Option.or_eq_none_iff,
    keyObjection?_eq_none_iff_allowsKey, findSome?_operandObjection?_eq_none_iff,
    valuesObjection?_eq_none_iff]
  constructor
  · rintro ⟨⟨hkey, hall, hlist⟩, rfl⟩
    have hvalues := forall₂_toValue?_iff.2 ⟨hall, rfl⟩
    refine ⟨hkey, hvalues, ?_⟩
    rw [forall₂_toValue?_eq_nil_iff hvalues] at hlist
    exact or_iff_not_imp_left.2 fun hempty => hlist (not_not.1 hempty)
  · rintro ⟨hkey, hvalues, hlist⟩
    obtain ⟨hall, rfl⟩ := forall₂_toValue?_iff.1 hvalues
    refine ⟨⟨hkey, hall, fun hempty => ?_⟩, rfl⟩
    exact hlist.resolve_left (not_not.2 ((forall₂_toValue?_eq_nil_iff hvalues).1 hempty))

/-- **What stands against a request** is what it is refused for. -/
theorem requestObjection?_eq_some_iff {failure : Failure} :
    policy.requestObjection? operator key operands = some failure
      ↔ policy.Refuses operator key operands failure := by
  rw [requestObjection?, Option.or_eq_some_iff, Option.or_eq_some_iff, keyObjection?_eq_some_iff,
    keyObjection?_eq_none_iff_allowsKey, findSome?_operandObjection?_eq_some_iff,
    findSome?_operandObjection?_eq_none_iff, valuesObjection?, Option.ite_none_right_eq_some,
    Option.some.injEq]
  constructor
  · rintro (⟨hkey, rfl⟩ | ⟨hkey, ⟨⟨operand, hmem, hfinite⟩, rfl⟩ | ⟨hall, ⟨hempty, hlist⟩, rfl⟩⟩)
    · exact .emptyKey hkey
    · exact .notFinite hkey hmem hfinite
    · have hvalues := forall₂_toValue?_iff.2 ⟨hall, rfl⟩
      exact .emptyValues hkey ((forall₂_toValue?_eq_nil_iff hvalues).1 hempty) hlist
  · rintro (hkey | ⟨hkey, hmem, hfinite⟩ | ⟨hkey, rfl, hlist⟩)
    · exact Or.inl ⟨hkey, rfl⟩
    · exact Or.inr ⟨hkey, Or.inl ⟨⟨_, hmem, hfinite⟩, rfl⟩⟩
    · exact Or.inr ⟨hkey, Or.inr ⟨List.forall_mem_nil _, ⟨rfl, hlist⟩, rfl⟩⟩

/-! ## Settled requests -/

theorem Refuses.kind_eq {failure : Failure} (h : policy.Refuses operator key operands failure) :
    failure.kind = .invalidArgument := by
  cases h with
  | emptyKey => rfl
  | notFinite => rfl
  | emptyValues => rfl

/-- **Only operands are refused** if the key and the length of the list are
allowed. -/
theorem refuses_iff_of_allowed {failure : Failure}
    (hkey : policy.AllowsKey key) (hlist : operands ≠ [] ∨ policy.allowEmptyValues = true) :
    policy.Refuses operator key operands failure
      ↔ (∃ operand ∈ operands, operand.IsNotFinite) ∧ failure = .notFinite operator key := by
  constructor
  · intro h
    cases h with
    | emptyKey key_refused => exact absurd hkey key_refused
    | notFinite key_allowed mem not_finite => exact ⟨⟨_, mem, not_finite⟩, rfl⟩
    | emptyValues key_allowed operands_eq list_refused =>
      rw [list_refused] at hlist
      exact absurd operands_eq (hlist.resolve_right Bool.false_ne_true)
  · rintro ⟨⟨operand, hmem, hoperand⟩, rfl⟩
    exact .notFinite hkey hmem hoperand

/-- **A policy that allows more grants the same**, and with the same values. -/
theorem Grants.mono {larger : Policy} {values : List Value} (h : policy.Grants key operands values)
    (hle : policy ≤ larger) : larger.Grants key operands values where
  key_allowed := h.key_allowed.imp_right hle.1
  values_eq := h.values_eq
  list_allowed := h.list_allowed.imp_right hle.2

/-- **A leaf that looks up** is built as the request for it is settled. -/
theorem settles_membership (policy : Policy) (key : String) (operands : List Operand) :
    (policy.membership key operands).Settles
      (fun p => ∃ values, policy.Grants key operands values ∧ p = .member key values)
      (policy.Refuses .member key operands) := by
  have hruling : policy.membership key operands
      = Build.ruling (policy.requestObjection? .member key operands)
          (.member key (operands.filterMap Operand.toValue?)) :=
    membership_eq_ruling policy key operands
  rw [hruling]
  refine Build.settles_ruling (fun p => ⟨?_, ?_⟩) fun failure => requestObjection?_eq_some_iff
  · rintro ⟨hnone, rfl⟩
    exact ⟨_, requestObjection?_eq_none_and_iff.1 ⟨hnone, rfl⟩, rfl⟩
  · rintro ⟨values, hgrants, rfl⟩
    obtain ⟨hnone, hvalues⟩ : policy.requestObjection? .member key operands = none
        ∧ values = operands.filterMap Operand.toValue? :=
      requestObjection?_eq_none_and_iff.2 hgrants
    exact ⟨hnone, by rw [hvalues]⟩

/-- **A leaf that compares** is built as the request for it is settled. -/
theorem settles_comparison (policy : Policy) (relation : Relation) (key : String)
    (operand : Operand) :
    (policy.comparison relation key operand).Settles
      (fun p => ∃ value, policy.Grants key [operand] [value] ∧ p = .compare relation key value)
      (policy.Refuses (.compare relation) key [operand]) := by
  -- if the operand has no value, then nothing is made of the one that is put in its place
  have hruling : policy.comparison relation key operand
      = Build.ruling (policy.requestObjection? (.compare relation) key [operand])
          (.compare relation key (operand.toValue?.getD .null)) := by
    rw [requestObjection?_singleton]
    exact comparison_eq_ruling _ fun v hv => by rw [hv]; rfl
  rw [hruling]
  refine Build.settles_ruling (fun p => ⟨?_, ?_⟩) fun failure => requestObjection?_eq_some_iff
  · rintro ⟨hnone, rfl⟩
    have hgrants := requestObjection?_eq_none_and_iff.1 ⟨hnone, rfl⟩
    obtain ⟨value, _, hvalue, _, hvalues⟩ := List.forall₂_cons_left_iff.1 hgrants.values_eq
    rw [List.filterMap_cons_some hvalue] at hgrants
    exact ⟨value, hgrants, by rw [hvalue]; rfl⟩
  · rintro ⟨value, hgrants, rfl⟩
    have hvalue : operand.toValue? = some value := (List.forall₂_cons.1 hgrants.values_eq).1
    exact ⟨(requestObjection?_eq_none_and_iff.2 hgrants).1, by rw [hvalue]; rfl⟩

/-- **Every request for a leaf is settled.** A leaf that looks up is built out
of the values granted for its key and its operands, and a leaf that compares
out of the one value granted for its key and its operand. The event of a refusal
is a record of it, in the class of bad arguments and with the text of the failure
that is returned. A policy that allows more builds what was built under the
policy, and the same leaf. -/
theorem settles_requests (policy : Policy) (key : String) :
    (∀ operands, (policy.membership key operands).Settles
        (fun p => ∃ values, policy.Grants key operands values ∧ p = .member key values)
        (policy.Refuses .member key operands))
      ∧ (∀ relation operand, (policy.comparison relation key operand).Settles
        (fun p => ∃ value, policy.Grants key [operand] [value] ∧ p = .compare relation key value)
        (policy.Refuses (.compare relation) key [operand]))
      ∧ (∀ operator operands failure, policy.Refuses operator key operands failure →
        (Event.rejected failure).RecordsRefusal failure.message)
      ∧ ∀ larger, policy ≤ larger → ∀ log p,
        (∀ operands, ((policy.membership key operands).run log).1 = .ok p →
          (larger.membership key operands).run log = (.ok p, log))
        ∧ ∀ relation operand, ((policy.comparison relation key operand).run log).1 = .ok p →
          (larger.comparison relation key operand).run log = (.ok p, log) := by
  refine ⟨policy.settles_membership key, fun relation => policy.settles_comparison relation key,
    fun operator operands failure hrefused => Event.recordsRefusal_rejected hrefused.kind_eq,
    fun larger hle log p => ⟨?_, ?_⟩⟩
  · intro operands hbuilt
    obtain ⟨values, hgrants, rfl⟩ :=
      (policy.settles_membership key operands).granted_of_run_eq_ok hbuilt
    exact ((larger.settles_membership key operands).ok_iff log _).2 ⟨values, hgrants.mono hle, rfl⟩
  · intro relation operand hbuilt
    obtain ⟨value, hgrants, rfl⟩ :=
      (policy.settles_comparison relation key operand).granted_of_run_eq_ok hbuilt
    exact ((larger.settles_comparison relation key operand).ok_iff log _).2
      ⟨value, hgrants.mono hle, rfl⟩

/-- Under a policy that allows the empty key but not the empty list, four
operands become four values in their order, and the same under a policy that
allows both. With an optional operand behind them that is no number the
request is refused for that one, and without any operand for the list. The
strict policy refuses an empty key though the operand is infinite as well. -/
theorem settles_requests_of_mixed_operands :
    let policy : Policy := ⟨true, false⟩
    let operands : List Operand := [.present (.int8 (-1)), .absent, .size 7, .absent]
    let leaf : Predicate := .member "" [.int (-1), .null, .int 7, .null]
    (policy.membership "" operands).run [] = (.ok leaf, [])
      ∧ (Policy.permissive.membership "" operands).run [] = (.ok leaf, [])
      ∧ (policy.membership "" (operands ++ [.present (.double 0x7FF8000000000000)])).run []
        = (.error (.notFinite .member ""), [.rejected (.notFinite .member "")])
      ∧ (policy.membership "" []).run []
        = (.error (.emptyValues ""), [.rejected (.emptyValues "")])
      ∧ (Policy.strict.comparison .less "" (.single 0x7F800000)).run []
        = (.error (.emptyKey (.compare .less)), [.rejected (.emptyKey (.compare .less))]) := by
  intro policy operands leaf
  have hkey : policy.AllowsKey "" := Or.inr rfl
  have hgrants : policy.Grants "" operands [.int (-1), .null, .int 7, .null] := by
    refine ⟨hkey, .cons rfl (.cons rfl (.cons rfl (.cons rfl .nil))), Or.inl (List.cons_ne_nil _ _)⟩
  have hle : policy ≤ Policy.permissive := ⟨fun _ => rfl, fun _ => rfl⟩
  obtain ⟨hmembership, -, -, hlarger⟩ := settles_requests policy ""
  have hbuilt : (policy.membership "" operands).run [] = (.ok leaf, []) :=
    ((hmembership operands).ok_iff [] leaf).2 ⟨_, hgrants, rfl⟩
  refine ⟨hbuilt, (hlarger _ hle [] leaf).1 operands (congrArg Prod.fst hbuilt), ?_, ?_, ?_⟩
  · refine ((hmembership _).error_iff [] _).2 (.notFinite hkey List.mem_append_cons_self ?_)
    exact fun h => h (by decide)
  · exact ((hmembership []).error_iff [] _).2 (.emptyValues hkey rfl rfl)
  · refine (((settles_requests Policy.strict "").2.1 .less _).error_iff [] _).2 (.emptyKey ?_)
    exact fun h => h.elim (absurd rfl) Bool.false_ne_true

end Policy

end FilterTree
