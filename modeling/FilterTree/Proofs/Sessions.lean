import FilterTree.Session
import FilterTree.Proofs.Documents
import FilterTree.Proofs.FinitePatterns
import FilterTree.Proofs.LicensedLeaves

/-!
# The trees of a session

What a step of a session builds is licensed for vacuous leaves as far as the
step itself or the trees in the registers are (`Session.IsLicensed.step`).
So a whole run keeps its registers licensed, in whatever order it builds
leaves, composes trees, takes them apart and decodes them
(`Session.IsLicensed.run`). A run starts without a tree. Its licences
therefore come from its steps, and every vacuous leaf in one of its trees
goes back to a step that built a leaf under a policy which allows it
(`Session.leaves_of_run`).

Numbers that are not finite have no licence at all. A pattern of either
width whose exponent bits are all ones has no value
(`Operand.toValue?_eq_none_iff`), and a step that is given one leaves its
register empty.
-/

namespace FilterTree

/-! ## Licences of constructions -/

namespace Construction

/-- The policy under which a construction builds a leaf. -/
def policy? : Construction → Option Policy
  | .compare policy _ _ _ => some policy
  | .member policy _ _ => some policy
  | _ => none

/-- Whether a construction is a leaf under a policy that allows the empty
key. -/
def allowsEmptyKey (c : Construction) : Bool := c.policy?.any Policy.allowEmptyKey

/-- Whether a construction is a leaf that looks up, under a policy that
allows the empty list. -/
def allowsEmptyList : Construction → Bool
  | .member policy _ _ => policy.allowEmptyValues
  | _ => false

theorem allowsEmptyKey_ne_of_strict {c : Construction}
    (h : ∀ policy ∈ c.policy?, policy = .strict) : c.allowsEmptyKey ≠ true := by
  unfold allowsEmptyKey
  cases hpolicy : c.policy? with
  | none => exact nofun
  | some policy =>
    obtain rfl := h policy hpolicy
    exact nofun

theorem allowsEmptyList_ne_of_strict {c : Construction}
    (h : ∀ policy ∈ c.policy?, policy = .strict) : c.allowsEmptyList ≠ true := by
  cases c with
  | member policy key operands =>
    obtain rfl := h policy rfl
    exact nofun
  | _ => exact nofun

/-- The operands that a construction is given for a leaf. -/
def operands : Construction → List Operand
  | .compare _ _ _ operand => [operand]
  | .member _ _ operands => operands
  | _ => []

end Construction

namespace Session

/-- **A licensed session**: the trees in its registers are. -/
def IsLicensed (emptyKeys emptyLists : Prop) (s : Session) : Prop :=
  ∀ p, some p ∈ s.registers → p.IsLicensed emptyKeys emptyLists

variable {emptyKeys emptyLists : Prop} {s : Session}

/-! ## Registers -/

/-- The tree in a register of a licensed session is licensed. -/
theorem IsLicensed.tree (hs : s.IsLicensed emptyKeys emptyLists) {a : Nat} {p : Predicate}
    (h : s.tree a = .ok p) : p.IsLicensed emptyKeys emptyLists := by
  unfold Session.tree at h
  split at h
  · rename_i q hq
    obtain rfl := Except.ok.inj h
    exact hs q (Array.mem_of_getElem? hq)
  · exact absurd h nofun

/-- The trees in several registers of a licensed session are licensed. -/
theorem IsLicensed.trees (hs : s.IsLicensed emptyKeys emptyLists) {of : List Nat}
    {ps : List Predicate} (h : s.trees of = .ok ps) :
    ∀ p ∈ ps, p.IsLicensed emptyKeys emptyLists := by
  induction of generalizing ps with
  | nil =>
    obtain rfl := Except.ok.inj h
    exact List.forall_mem_nil _
  | cons a of ih =>
    obtain ⟨p, hp, h⟩ := bind_eq_ok_iff.1 h
    obtain ⟨others, hothers, h⟩ := bind_eq_ok_iff.1 h
    obtain rfl := Except.ok.inj h
    exact List.forall_mem_cons.2 ⟨hs.tree hp, ih hothers⟩

/-- The tree in a register of a licensed session, if one is referred to, is
licensed. -/
theorem IsLicensed.treeOption (hs : s.IsLicensed emptyKeys emptyLists) {b : Option Nat}
    {other : Option Predicate} (h : s.treeOption b = .ok other) :
    ∀ q ∈ other, q.IsLicensed emptyKeys emptyLists := by
  cases b with
  | none =>
    obtain rfl := Except.ok.inj h
    rintro q ⟨⟩
  | some a =>
    cases htree : s.tree a with
    | error obstacle =>
      rw [Session.treeOption, htree] at h
      exact absurd h nofun
    | ok p =>
      rw [Session.treeOption, htree] at h
      obtain rfl := Except.ok.inj h
      rintro q ⟨⟩
      exact hs.tree htree

/-- **A register more** keeps a session licensed if the tree in it is. -/
theorem IsLicensed.push (hs : s.IsLicensed emptyKeys emptyLists) {tree : Option Predicate}
    (h : ∀ p ∈ tree, p.IsLicensed emptyKeys emptyLists) :
    (s.push tree).IsLicensed emptyKeys emptyLists := by
  intro p hp
  rcases Array.mem_push.1 hp with hp | hp
  · exact hs p hp
  · exact h p hp.symm

end Session

/-! ## Chains -/

variable {emptyKeys emptyLists : Prop}

/-- A chain of licensed trees that grows by one link is licensed. -/
theorem Link.isLicensed_of_grow {link : Link} {other : Option Predicate} {p q : Predicate}
    (hp : p.IsLicensed emptyKeys emptyLists)
    (hother : ∀ q ∈ other, q.IsLicensed emptyKeys emptyLists)
    (h : link.grow other p = .ok q) : q.IsLicensed emptyKeys emptyLists := by
  cases link with
  | negate =>
    obtain rfl := Except.ok.inj h
    exact Predicate.isLicensed_negate_iff.2 hp
  | double connective =>
    obtain rfl := Except.ok.inj h
    exact hp.pair hp connective
  | before connective =>
    cases other with
    | none => exact absurd h nofun
    | some r =>
      obtain rfl := Except.ok.inj h
      exact hp.pair (hother r rfl) connective
  | after connective =>
    cases other with
    | none => exact absurd h nofun
    | some r =>
      obtain rfl := Except.ok.inj h
      exact (hother r rfl).pair hp connective

/-- **A chain of licensed trees** is licensed, however long. -/
theorem Link.isLicensed_of_extend {link : Link} {other : Option Predicate} {count : Nat}
    {p q : Predicate} (hp : p.IsLicensed emptyKeys emptyLists)
    (hother : ∀ q ∈ other, q.IsLicensed emptyKeys emptyLists)
    (h : link.extend other count p = .ok q) : q.IsLicensed emptyKeys emptyLists := by
  induction count generalizing p with
  | zero =>
    obtain rfl := Except.ok.inj h
    exact hp
  | succ count ih =>
    obtain ⟨next, hnext, h⟩ := bind_eq_ok_iff.1 h
    exact ih (isLicensed_of_grow hp hother hnext) h

namespace Session

variable {s : Session} {log : List Event} {p : Predicate}

/-! ## Steps -/

theorem run_ofBuild_eq_ok_iff {build : Build Predicate} :
    ((ofBuild build).run log).1 = .ok p ↔ (build.run log).1 = .ok p :=
  mapError_eq_ok_iff

theorem run_ofReading_eq_ok_iff {reading : Traced (Except ReadFault Predicate)} :
    ((ofReading reading).run log).1 = .ok p ↔ (reading.run log).1 = .ok p :=
  mapError_eq_ok_iff

/-- **What a construction builds** out of a licensed session is licensed,
with the licences that its own policy gives. -/
theorem IsLicensed.construct (hs : s.IsLicensed emptyKeys emptyLists) {c : Construction}
    (hkeys : c.allowsEmptyKey = true → emptyKeys) (hlists : c.allowsEmptyList = true → emptyLists)
    (h : ((s.construct c).run log).1 = .ok p) : p.IsLicensed emptyKeys emptyLists := by
  cases c with
  | compare policy relation key operand =>
    exact Predicate.isLicensed_of_comparison (run_ofBuild_eq_ok_iff.1 h) hkeys
  | member policy key operands =>
    exact Predicate.isLicensed_of_membership (run_ofBuild_eq_ok_iff.1 h) hkeys hlists
  | pair connective a b =>
    obtain ⟨q, hq, h⟩ := bind_eq_ok_iff.1 h
    obtain ⟨r, hr, h⟩ := bind_eq_ok_iff.1 h
    obtain rfl := Except.ok.inj h
    exact (hs.tree hq).pair (hs.tree hr) connective
  | pairOption connective a b =>
    obtain ⟨q, hq, h⟩ := bind_eq_ok_iff.1 h
    obtain ⟨other, hother, h⟩ := bind_eq_ok_iff.1 h
    obtain rfl := Except.ok.inj h
    exact (hs.tree hq).pairOption (hs.treeOption hother) connective
  | gather connective of =>
    obtain ⟨ps, hps, h⟩ := bind_eq_ok_iff.1 h
    obtain rfl := Except.ok.inj h
    exact Predicate.isLicensed_join_iff.2 (hs.trees hps)
  | negate a =>
    obtain ⟨q, hq, h⟩ := bind_eq_ok_iff.1 h
    obtain rfl := Except.ok.inj h
    exact Predicate.isLicensed_negate_iff.2 (hs.tree hq)
  | child a index =>
    obtain ⟨q, hq, h⟩ := bind_eq_ok_iff.1 h
    cases hchild : q.children[index]? with
    | none =>
      rw [hchild] at h
      exact absurd h nofun
    | some child =>
      rw [hchild] at h
      obtain rfl := Except.ok.inj h
      exact (hs.tree hq).child (List.mem_of_getElem? hchild)
  | chain a b link count =>
    obtain ⟨q, hq, h⟩ := bind_eq_ok_iff.1 h
    obtain ⟨other, hother, h⟩ := bind_eq_ok_iff.1 h
    exact Link.isLicensed_of_extend (hs.tree hq) (hs.treeOption hother) h
  | readText text =>
    exact (Predicate.isMeaningful_of_run_ofText (run_ofReading_eq_ok_iff.1 h)).isLicensed
  | decode document =>
    exact (Predicate.isMeaningful_of_run_ofCanonical (run_ofBuild_eq_ok_iff.1 h)).isLicensed
  | readDocument text =>
    rw [Session.construct] at h
    cases hdocument : Json.ofText? text with
    | none =>
      rw [hdocument] at h
      exact absurd h nofun
    | some j =>
      rw [hdocument] at h
      exact (Predicate.isMeaningful_of_run_ofCanonical (run_ofBuild_eq_ok_iff.1 h)).isLicensed
  | reload a =>
    rw [Session.construct] at h
    cases htree : s.tree a with
    | error obstacle =>
      rw [htree] at h
      exact absurd h nofun
    | ok q =>
      rw [htree] at h
      exact (Predicate.isMeaningful_of_run_ofCanonical (run_ofBuild_eq_ok_iff.1 h)).isLicensed
  | reloadText a =>
    rw [Session.construct] at h
    cases htree : s.tree a with
    | error obstacle =>
      rw [htree] at h
      exact absurd h nofun
    | ok q =>
      rw [htree] at h
      exact (Predicate.isMeaningful_of_run_ofText (run_ofReading_eq_ok_iff.1 h)).isLicensed

/-- **A construction that is given an operand that is not finite** builds
nothing. -/
theorem run_construct_ne_ok {c : Construction} (h : ∃ operand ∈ c.operands, operand.IsNotFinite) :
    ((s.construct c).run log).1 ≠ .ok p := by
  obtain ⟨operand, hoperand, hnone⟩ := h
  rw [← Operand.toValue?_eq_none_iff] at hnone
  intro hbuilt
  cases c with
  | compare policy relation key other =>
    obtain rfl := List.mem_singleton.1 hoperand
    obtain ⟨-, value, hvalue, -⟩ :=
      Policy.run_comparison_eq_ok_iff.1 (run_ofBuild_eq_ok_iff.1 hbuilt)
    exact absurd (hnone.symm.trans hvalue) nofun
  | member policy key operands =>
    obtain ⟨-, hvalues, -⟩ := Policy.run_membership_eq_ok_iff.1 (run_ofBuild_eq_ok_iff.1 hbuilt)
    exact hvalues operand hoperand hnone
  | _ => exact absurd hoperand List.not_mem_nil

/-- **What a step does to a session**: it fills one register more, with what
its construction builds or else with nothing. -/
theorem exists_run_step_eq_push (s : Session) (step : Step) (log : List Event) :
    ∃ tree, ((s.step step).run log).1.2 = s.push tree
      ∧ ∀ p ∈ tree, ∃ c quiet, step = .build c quiet ∧ ((s.construct c).run log).1 = .ok p := by
  cases step with
  | ask question => exact ⟨none, rfl, by rintro p ⟨⟩⟩
  | idle => exact ⟨none, rfl, by rintro p ⟨⟩⟩
  | build c quiet =>
    rw [Session.step, StateT.run_bind]
    cases hbuilt : (s.construct c).run log with
    | mk outcome after =>
      cases outcome with
      | error obstacle => exact ⟨none, rfl, by rintro p ⟨⟩⟩
      | ok p =>
        refine ⟨some p, ?_, ?_⟩
        -- the register is filled whether or not the tree is described
        · cases quiet <;> rfl
        · rintro q ⟨⟩
          exact ⟨c, quiet, rfl, congrArg Prod.fst hbuilt⟩

/-- **A step keeps a session licensed**, with the licences that its own
policy gives. -/
theorem IsLicensed.step (hs : s.IsLicensed emptyKeys emptyLists) {step : Step}
    (hkeys : ∀ c quiet, step = .build c quiet → c.allowsEmptyKey = true → emptyKeys)
    (hlists : ∀ c quiet, step = .build c quiet → c.allowsEmptyList = true → emptyLists) :
    ((s.step step).run log).1.2.IsLicensed emptyKeys emptyLists := by
  obtain ⟨tree, hpush, hbuilt⟩ := exists_run_step_eq_push s step log
  rw [hpush]
  refine hs.push fun p hp => ?_
  obtain ⟨c, quiet, hstep, hc⟩ := hbuilt p hp
  exact hs.construct (hkeys c quiet hstep) (hlists c quiet hstep) hc

/-! ## Runs -/

/-- **A run keeps a session licensed**, with the licences that its steps
give. -/
theorem IsLicensed.run (hs : s.IsLicensed emptyKeys emptyLists) {steps : List Step}
    (hkeys : ∀ c quiet, .build c quiet ∈ steps → c.allowsEmptyKey = true → emptyKeys)
    (hlists : ∀ c quiet, .build c quiet ∈ steps → c.allowsEmptyList = true → emptyLists) :
    ((s.run steps).run log).1.IsLicensed emptyKeys emptyLists := by
  induction steps generalizing s log with
  | nil => exact hs
  | cons first rest ih =>
    rw [Session.run, StateT.run_bind]
    refine ih (hs.step ?_ ?_) ?_ ?_
    · rintro c quiet rfl
      exact hkeys c quiet List.mem_cons_self
    · rintro c quiet rfl
      exact hlists c quiet List.mem_cons_self
    · exact fun c quiet hstep => hkeys c quiet (List.mem_cons_of_mem _ hstep)
    · exact fun c quiet hstep => hlists c quiet (List.mem_cons_of_mem _ hstep)

/-- **A run keeps the registers** that have been filled before. -/
theorem run_registers_of_lt (steps : List Step) {i : Nat} (h : i < s.registers.size) :
    ((s.run steps).run log).1.registers[i]? = s.registers[i]? := by
  induction steps generalizing s log with
  | nil => rfl
  | cons first rest ih =>
    rw [Session.run, StateT.run_bind]
    obtain ⟨tree, hpush, -⟩ := exists_run_step_eq_push s first log
    have hsize : i < ((s.step first).run log).1.2.registers.size := by
      rw [hpush, push, Array.size_push]
      omega
    refine (ih hsize).trans ?_
    rw [hpush, push, Array.getElem?_push_lt h, Array.getElem?_eq_getElem h]

/-- **Each step of a run fills its register** with what its construction
builds at that point, or else with nothing. -/
theorem exists_run_registers_eq {steps : List Step} {i : Nat} {step : Step}
    (h : steps[i]? = some step) :
    ∃ tree, ((s.run steps).run log).1.registers[s.registers.size + i]? = some tree
      ∧ ∀ p ∈ tree, ∃ c quiet, step = .build c quiet
        ∧ ∃ s' log', ((Session.construct s' c).run log').1 = .ok p := by
  induction steps generalizing s log i with
  | nil => exact absurd h nofun
  | cons first rest ih =>
    rw [Session.run, StateT.run_bind]
    obtain ⟨tree, hpush, hbuilt⟩ := exists_run_step_eq_push s first log
    have hsize : ((s.step first).run log).1.2.registers.size = s.registers.size + 1 := by
      rw [hpush, push, Array.size_push]
    cases i with
    | zero =>
      obtain rfl : first = step := Option.some.inj h
      refine ⟨tree, ?_, ?_⟩
      · have hlt : s.registers.size + 0 < ((s.step first).run log).1.2.registers.size := by
          rw [hsize]
          exact Nat.lt_succ_self _
        refine (run_registers_of_lt rest hlt).trans ?_
        rw [hpush, push, Nat.add_zero, Array.getElem?_push_size]
      · intro p hp
        obtain ⟨c, quiet, hstep, hc⟩ := hbuilt p hp
        exact ⟨c, quiet, hstep, s, log, hc⟩
    | succ i =>
      obtain ⟨tree, htree, hrest⟩ := ih (s := ((s.step first).run log).1.2) h
      rw [hsize, Nat.add_right_comm, Nat.add_assoc] at htree
      exact ⟨tree, htree, hrest⟩

theorem isLicensed_start : ({} : Session).IsLicensed emptyKeys emptyLists := by
  intro p hp
  exact absurd hp (Array.not_mem_empty _)

/-- **The leaves of every tree of a run are valid.** In a tree that a step of
a session has built, however deep, every double is finite, and a step that
is given a number that is not builds no tree. A leaf has the empty key only
if a step built a leaf under a policy that allows it, and a leaf looks up in
the empty list only if a step built a leaf of that kind under a policy that
allows it. So under the strict policy every tree is meaningful. -/
theorem leaves_of_run (steps : List Step) :
    (∀ p, some p ∈ (Traced.outcome (Session.run {} steps)).1.registers →
      (∀ x, .float x ∈ p.constants →
          ∃ bits, Double.IsFinitePattern bits ∧ Double.ofBits? bits = some x)
        ∧ ((∃ leaf ∈ p.leaves, leaf.key? = some "") →
          ∃ c quiet, Step.build c quiet ∈ steps ∧ c.allowsEmptyKey = true)
        ∧ ((∃ leaf ∈ p.leaves, leaf.values? = some []) →
          ∃ c quiet, Step.build c quiet ∈ steps ∧ c.allowsEmptyList = true)
        ∧ ((∀ c quiet, Step.build c quiet ∈ steps → ∀ policy ∈ c.policy?, policy = .strict) →
          p.IsMeaningful))
      ∧ ∀ (i : Nat) c quiet, steps[i]? = some (Step.build c quiet) →
        (∃ operand ∈ c.operands, operand.IsNotFinite) →
        (Traced.outcome (Session.run {} steps)).1.registers[i]? = some none := by
  refine ⟨fun p hp => ?_, fun i c quiet hstep hoperand => ?_⟩
  · have hlicensed : p.IsLicensed
        (∃ c quiet, Step.build c quiet ∈ steps ∧ c.allowsEmptyKey = true)
        (∃ c quiet, Step.build c quiet ∈ steps ∧ c.allowsEmptyList = true) :=
      isLicensed_start.run (fun c quiet hstep hallows => ⟨c, quiet, hstep, hallows⟩)
        (fun c quiet hstep hallows => ⟨c, quiet, hstep, hallows⟩) p hp
    refine ⟨fun x _ => x.exists_isFinitePattern_ofBits?, ?_, ?_, ?_⟩
    · rintro ⟨leaf, hleaf, hempty⟩
      exact (hlicensed leaf hleaf).1 hempty
    · rintro ⟨leaf, hleaf, hempty⟩
      exact (hlicensed leaf hleaf).2 hempty
    · intro hstrict
      rw [← Predicate.isLicensed_false_iff]
      refine isLicensed_start.run (fun c quiet hstep hallows => ?_)
        (fun c quiet hstep hallows => ?_) p hp
      · exact absurd hallows (c.allowsEmptyKey_ne_of_strict (hstrict c quiet hstep))
      · exact absurd hallows (c.allowsEmptyList_ne_of_strict (hstrict c quiet hstep))
  · obtain ⟨tree, htree, hbuilt⟩ := exists_run_registers_eq hstep
    have hnone : tree = none := by
      refine Option.eq_none_iff_forall_ne_some.2 fun p hp => ?_
      obtain ⟨_, _, ⟨rfl, rfl⟩, s', log', hc⟩ := hbuilt p hp
      exact run_construct_ne_ok hoperand hc
    rw [← hnone, ← htree, Array.size_empty, Nat.zero_add]
    rfl

/-- A leaf with the empty key that is built under the permissive policy, put
under a negation and taken out of a conjunction again goes back to the step
that built it, and an infinite operand beside it builds nothing. -/
theorem leaves_of_run_of_vacuous_leaf :
    let steps : List Step := [
      .build (.compare .permissive .equal "" .absent) true,
      .build (.compare .permissive .less "t" (.present (.double 0x7FF0000000000000))) true,
      .build (.negate 0) true,
      .build (.decode (.array [.text "EQ", .text "k", .bool true])) true,
      .build (.pair .and 2 3) false,
      .build (.child 4 0) true]
    let p : Predicate := .negate (.compare .equal "" .null)
    let registers := (Traced.outcome (Session.run {} steps)).1.registers
    some p ∈ registers
      ∧ (∃ leaf ∈ p.leaves, leaf.key? = some "")
      ∧ (∃ c quiet, Step.build c quiet ∈ steps ∧ c.allowsEmptyKey = true)
      ∧ registers[1]? = some none := by
  intro steps p registers
  have hp : some p ∈ registers := Array.mem_of_getElem? (i := 5) rfl
  have hleaf : ∃ leaf ∈ p.leaves, leaf.key? = some "" :=
    ⟨_, List.mem_singleton_self _, rfl⟩
  have hoperand : (Operand.present (.double 0x7FF0000000000000)).IsNotFinite :=
    Operand.toValue?_eq_none_iff.1 rfl
  exact ⟨hp, hleaf, ((leaves_of_run steps).1 p hp).2.1 hleaf,
    (leaves_of_run steps).2 1 _ _ rfl ⟨_, List.mem_singleton_self _, hoperand⟩⟩

end Session

end FilterTree
