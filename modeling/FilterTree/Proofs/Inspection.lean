import FilterTree.Proofs.Mappings
import FilterTree.Proofs.TextRoundTrip
import FilterTree.Proofs.UniqueTexts
import Mathlib.Algebra.Order.BigOperators.Group.List
import Mathlib.Order.Bounds.Defs

/-!
# What a tree says of its size

The number of nodes and the depth are computed on the tree. They can be read
off the canonical form as well, by one who knows only how forms are laid out:
a node is a mapping with an `op` entry, and the nodes below it stand under
`condition` or in the list under `conditions` (`Json.descend`). That is a way to
go through any document. Keys and texts that are spelled like one of the names
lead nowhere, for only the names of entries are looked at.

Going down in a canonical form is going down in the tree
(`Predicate.descend_canonical`), and so the nodes that are found
(`Json.nodes`) are as many as the tree has, and the longest way down
(`Json.IsWayDown`) has as many nodes as the tree is deep.

How deep a form nests is between the depth and twice the depth, since a node
is one object and brings one list at most. To read a text takes as many levels
as its document nests (`Json.takesLevels_ofText_toText`), and a reader follows
127. So the depth settles for most trees whether a reader follows, and for trees
with a depth between 64 and 127 it does not (`Predicate.canonical_shows_size`).
-/

namespace FilterTree

namespace Json

/-! ## Nodes of documents -/

/-- **A tagged document**: an object with an entry named `op`. -/
def isTagged : Json → Bool
  | .object entries => entries.any (·.1 == "op")
  | _ => false

/-- The items of an array. -/
def items : Json → List Json
  | .array items => items
  | _ => []

/-- The documents that an entry leads down to: what is named `condition`, and
the items of what is named `conditions`. -/
def descendEntry (entry : String × Json) : List Json :=
  if entry.1 = "condition" then [entry.2]
  else if entry.1 = "conditions" then entry.2.items
  else []

/-- **The documents one step down**, in the order of the entries. -/
def descend : Json → List Json
  | .object entries => entries.flatMap descendEntry
  | _ => []

mutual

/-- **The nodes of a document**: the tagged documents that are found by going
down, a document before those below it. -/
def nodes : Json → List Json
  | .object entries =>
    if isTagged (.object entries) then .object entries :: nodesOfEntries entries else []
  | _ => []

/-- The nodes that entries lead down to. -/
def nodesOfEntries : List (String × Json) → List Json
  | [] => []
  | (name, value) :: rest =>
    (if name = "condition" then nodes value
      else if name = "conditions" then nodesOfItems value
      else []) ++ nodesOfEntries rest

/-- The nodes of the items of an array. -/
def nodesOfItems : Json → List Json
  | .array items => nodesOfAll items
  | _ => []

/-- The nodes of several documents. -/
def nodesOfAll : List Json → List Json
  | [] => []
  | j :: rest => nodes j ++ nodesOfAll rest

end

/-- **A way down** in a document: tagged documents, each one step below the one
before it. -/
inductive IsWayDown : Json → List Json → Prop
  /-- The way ends here. -/
  | last {j : Json} (tagged : j.isTagged = true) : IsWayDown j [j]
  /-- The way goes on below. -/
  | step {j k : Json} {way : List Json} (tagged : j.isTagged = true) (mem : k ∈ j.descend)
    (rest : IsWayDown k way) : IsWayDown j (j :: way)

@[simp] theorem nodesOfAll_eq_flatMap (js : List Json) : nodesOfAll js = js.flatMap nodes := by
  induction js with
  | nil => rfl
  | cons j js ih => rw [nodesOfAll, ih, List.flatMap_cons]

@[simp] theorem nodesOfItems_eq_flatMap (j : Json) : nodesOfItems j = j.items.flatMap nodes := by
  cases j with
  | array items => exact nodesOfAll_eq_flatMap items
  | null => rfl
  | bool b => rfl
  | number n => rfl
  | text s => rfl
  | object entries => rfl

@[simp] theorem nodesOfEntries_eq_flatMap (entries : List (String × Json)) :
    nodesOfEntries entries = (entries.flatMap descendEntry).flatMap nodes := by
  induction entries with
  | nil => rfl
  | cons entry entries ih =>
    obtain ⟨name, value⟩ := entry
    rw [nodesOfEntries, ih, List.flatMap_cons, List.flatMap_append, descendEntry]
    split
    · rw [List.flatMap_singleton]
    · split
      · rw [nodesOfItems_eq_flatMap]
      · rfl

/-- **The nodes of a document** are itself, if it is tagged, and then those of
the documents one step down. -/
theorem nodes_eq {j : Json} (h : j.isTagged = true) : j.nodes = j :: j.descend.flatMap nodes := by
  cases j with
  | object entries => rw [nodes, if_pos h, nodesOfEntries_eq_flatMap, descend]
  | null => cases h
  | bool b => cases h
  | number n => cases h
  | text s => cases h
  | array items => cases h

end Json

/-! ## Nesting and levels -/

/-- **What takes a number of levels**: given fewer there is nothing, and given
more there is nothing else. This says where the levels stop to matter and not
what is there from then on. There may be nothing as well, as for a text with a
number in it that no double holds; for what is legible it is the document that
was written (`Json.Legible.toJson?_outline_ofText_toText`). -/
def TakesLevels {α : Type} (n : Nat) (read : Nat → Option α) : Prop :=
  ∃ full, ∀ levels, read levels = if n ≤ levels then full else none

theorem takesLevels_zero {α : Type} {read : Nat → Option α} {full : Option α}
    (h : ∀ levels, read levels = full) : TakesLevels 0 read :=
  ⟨full, fun levels => by rw [h, if_pos (Nat.zero_le levels)]⟩

/-- Two things together take as many levels as the one that takes more. -/
theorem TakesLevels.both {α β γ : Type} {a b : Nat} {first : Nat → Option α}
    {second : Nat → Option β} (ha : TakesLevels a first) (hb : TakesLevels b second)
    (f : α → β → γ) :
    TakesLevels (max a b) fun levels =>
      first levels >>= fun x => second levels >>= fun y => some (f x y) := by
  obtain ⟨x, hx⟩ := ha
  obtain ⟨y, hy⟩ := hb
  refine ⟨x >>= fun x => y >>= fun y => some (f x y), fun levels => ?_⟩
  show (first levels >>= fun x => second levels >>= fun y => some (f x y)) = _
  rw [hx, hy]
  exact bind_bind_of_enough f

/-- An array or an object takes one level more than its content. -/
theorem TakesLevels.succ {α β : Type} {a : Nat} {content : Nat → Option α}
    (ha : TakesLevels a content) {f : α → β} {read : Nat → Option β} (hzero : read 0 = none)
    (hsucc : ∀ levels, read (levels + 1) = content levels >>= fun x => some (f x)) :
    TakesLevels (1 + a) read := by
  obtain ⟨x, hx⟩ := ha
  refine ⟨x >>= fun x => some (f x), fun levels => ?_⟩
  cases levels with
  | zero => rw [hzero, if_neg (by omega)]
  | succ below =>
    rw [hsucc, hx]
    exact bind_of_enough f

namespace Json

/-- The documents of items take as many levels as the items nest. -/
theorem takesLevels_itemsToJson? {items : List Json} {outlines : List Outline}
    (h : List.Forall₂ ReadTo items outlines)
    (hitems : ∀ item ∈ items, ∀ o, item.ReadTo o → TakesLevels item.nesting o.toJson?) :
    TakesLevels (maxNesting items) (Outline.itemsToJson? outlines) := by
  induction h with
  | nil => exact takesLevels_zero fun levels => by rw [Outline.itemsToJson?]
  | cons hitem _ ih =>
    obtain ⟨hfirst, hrest⟩ := List.forall_mem_cons.1 hitems
    exact (hfirst _ hitem).both (ih hrest) List.cons

/-- The documents of entries take as many levels as the values nest. -/
theorem takesLevels_entriesToJson? {entries : List (String × Json)}
    {outlines : List (List Piece × Outline)} (h : List.Forall₂ EntryReadTo entries outlines)
    (hvalues : ∀ entry ∈ entries, ∀ o, entry.2.ReadTo o → TakesLevels entry.2.nesting o.toJson?) :
    TakesLevels (maxNestingOfValues entries) (Outline.entriesToJson? outlines) := by
  induction h with
  | nil => exact takesLevels_zero fun levels => by rw [Outline.entriesToJson?]
  | @cons entry outline entries outlines hentry _ ih =>
    obtain ⟨name, value⟩ := entry
    obtain ⟨pieces, o⟩ := outline
    obtain ⟨rfl, hvalue⟩ := hentry
    obtain ⟨hfirst, hrest⟩ := List.forall_mem_cons.1 hvalues
    have hread : Outline.entriesToJson? ((piecesOf name, o) :: outlines) = fun levels =>
        o.toJson? levels >>= fun value => Outline.entriesToJson? outlines levels >>= fun rest =>
          some ((name, value) :: rest) := by
      funext levels
      rw [Outline.entriesToJson?, textOf?_piecesOf]
      rfl
    rw [hread, maxNestingOfValues]
    exact (hfirst _ hvalue).both (ih hrest) fun value rest => (name, value) :: rest

/-- **The outline of a document** takes as many levels as the document nests,
whatever the numbers in it are worth. -/
theorem ReadTo.takesLevels {j : Json} {o : Outline} (h : j.ReadTo o) :
    TakesLevels j.nesting o.toJson? := by
  induction j generalizing o with
  | array items ih =>
    cases h.outlinedBy with
    | array parts =>
      exact (takesLevels_itemsToJson? parts fun item hitem o => ih item hitem).succ rfl fun _ => rfl
  | object entries ih =>
    cases h.outlinedBy with
    | object parts =>
      exact (takesLevels_entriesToJson? parts fun entry hentry o => ih entry hentry).succ rfl
        fun _ => rfl
  | null =>
    cases h.outlinedBy with
    | null => exact takesLevels_zero fun _ => rfl
  | bool b =>
    cases h.outlinedBy with
    | bool => exact takesLevels_zero fun _ => rfl
  | number n =>
    cases h.outlinedBy with
    | number => exact takesLevels_zero fun _ => rfl
  | text s =>
    cases h.outlinedBy with
    | text => exact takesLevels_zero fun _ => rfl

/-- **The text of a document** takes as many levels to read as the document
nests. -/
theorem takesLevels_ofText_toText (j : Json) :
    TakesLevels j.nesting (Reading.ofText j.toText).outline.toJson? := by
  obtain ⟨o, ho⟩ := j.exists_readTo
  rw [ho.ofText_toText]
  exact ho.takesLevels

end Json

namespace Predicate

/-! ## Nodes of canonical forms -/

@[simp] theorem isTagged_canonical (p : Predicate) : p.canonical.isTagged = true := by
  cases p <;> rw [canonical] <;> rfl

/-- **Going down in a canonical form** is going down in the tree. -/
@[simp] theorem descend_canonical (p : Predicate) :
    p.canonical.descend = p.children.map canonical := by
  cases p with
  | compare relation key value =>
    rw [canonical]
    rfl
  | member key values =>
    rw [canonical]
    rfl
  | join connective conditions =>
    rw [canonical, canonicals_eq_map]
    exact List.append_nil _
  | negate condition =>
    rw [canonical]
    rfl

@[simp] theorem totalNodes_eq_sum (ps : List Predicate) :
    totalNodes ps = (ps.map nodeCount).sum := by
  induction ps with
  | nil => rfl
  | cons p ps ih => rw [totalNodes, ih, List.map_cons, List.sum_cons]

/-- **The number of nodes** is one more than there are in the conditions. -/
theorem nodeCount_eq (p : Predicate) : p.nodeCount = 1 + (p.children.map nodeCount).sum := by
  cases p with
  | compare relation key value => rfl
  | member key values => rfl
  | join connective conditions => rw [nodeCount, totalNodes_eq_sum, children]
  | negate condition => rw [nodeCount, children, List.map_singleton, List.sum_singleton]

/-- **The canonical form has the nodes of the tree.** -/
theorem length_nodes_canonical (p : Predicate) : p.canonical.nodes.length = p.nodeCount := by
  induction p using children_induction with
  | step p ih =>
    rw [Json.nodes_eq p.isTagged_canonical, descend_canonical, List.length_cons, List.flatMap_map,
      List.length_flatMap, nodeCount_eq, List.map_congr_left ih, Nat.add_comm]

theorem maxDepth_le_iff {ps : List Predicate} {n : Nat} :
    maxDepth ps ≤ n ↔ ∀ p ∈ ps, p.depth ≤ n := by
  induction ps with
  | nil => exact iff_of_true (Nat.zero_le n) (List.forall_mem_nil _)
  | cons p ps ih => rw [maxDepth, Nat.max_le, ih, List.forall_mem_cons]

theorem exists_depth_eq_maxDepth {ps : List Predicate} (h : ps ≠ []) :
    ∃ p ∈ ps, p.depth = maxDepth ps := by
  induction ps with
  | nil => exact absurd rfl h
  | cons p ps ih =>
    rw [maxDepth]
    by_cases hlater : p.depth < maxDepth ps
    · -- the deepest is a later one, for there is no depth below that of no trees
      have hne : ps ≠ [] := by
        rintro rfl
        exact Nat.not_lt_zero _ hlater
      obtain ⟨q, hq, hdepth⟩ := ih hne
      exact ⟨q, List.mem_cons_of_mem p hq, by rw [hdepth, Nat.max_eq_right (Nat.le_of_lt hlater)]⟩
    · exact ⟨p, List.mem_cons_self, (Nat.max_eq_left (Nat.not_lt.1 hlater)).symm⟩

/-- **The depth** is one more than the greatest depth of the conditions. -/
theorem depth_eq (p : Predicate) : p.depth = 1 + maxDepth p.children := by
  cases p with
  | compare relation key value => rfl
  | member key values => rfl
  | join connective conditions => rw [depth, children]
  | negate condition => rw [depth, children, maxDepth, maxDepth, Nat.max_zero]

/-- **Some way down** in the canonical form has as many nodes as the tree is
deep. -/
theorem exists_isWayDown_canonical (p : Predicate) :
    ∃ way, p.canonical.IsWayDown way ∧ way.length = p.depth := by
  induction p using children_induction with
  | step p ih =>
    rw [depth_eq]
    by_cases hleaf : p.children = []
    · exact ⟨_, .last p.isTagged_canonical, by rw [hleaf]; rfl⟩
    · obtain ⟨q, hq, hdepth⟩ := exists_depth_eq_maxDepth hleaf
      obtain ⟨way, hway, hlength⟩ := ih q hq
      have hmem : q.canonical ∈ p.canonical.descend := by
        rw [descend_canonical]
        exact List.mem_map_of_mem hq
      exact ⟨_, .step p.isTagged_canonical hmem hway,
        by rw [List.length_cons, hlength, hdepth, Nat.add_comm]⟩

/-- **No way down** in the canonical form has more nodes than the tree is
deep. -/
theorem length_le_depth_of_isWayDown {p : Predicate} {j : Json} {way : List Json}
    (h : j.IsWayDown way) (hj : j = p.canonical) : way.length ≤ p.depth := by
  induction h generalizing p with
  | last _ =>
    rw [depth_eq]
    exact Nat.le_add_right 1 _
  | step _ hmem _ ih =>
    rw [hj, descend_canonical] at hmem
    obtain ⟨q, hq, hk⟩ := List.mem_map.1 hmem
    have hdepth := maxDepth_le_iff.1 (Nat.le_refl _) q hq
    rw [List.length_cons, depth_eq, Nat.add_comm]
    exact Nat.add_le_add_left ((ih hk.symm).trans hdepth) 1

/-- A tree has a node for every level. -/
theorem depth_le_nodeCount (p : Predicate) : p.depth ≤ p.nodeCount := by
  induction p using children_induction with
  | step p ih =>
    rw [depth_eq, nodeCount_eq]
    refine Nat.add_le_add_left (maxDepth_le_iff.2 fun q hq => ?_) 1
    exact (ih q hq).trans (List.le_sum_of_mem (List.mem_map_of_mem hq))

/-! ## Nesting of canonical forms -/

theorem maxNesting_le_iff {ps : List Predicate} {n : Nat} :
    maxNesting ps ≤ n ↔ ∀ p ∈ ps, p.nesting ≤ n := by
  induction ps with
  | nil => exact iff_of_true (Nat.zero_le n) (List.forall_mem_nil _)
  | cons p ps ih => rw [maxNesting, Nat.max_le, ih, List.forall_mem_cons]

/-- **Every node nests**: the canonical form has an object for it. -/
theorem depth_le_nesting (p : Predicate) : p.depth ≤ p.nesting := by
  induction p with
  | compare relation key value => exact Nat.le_refl 1
  | member key values => exact Nat.le_succ 1
  | join connective conditions ih =>
    have hconditions : maxDepth conditions ≤ maxNesting conditions :=
      maxDepth_le_iff.2 fun p hp => (ih p hp).trans (maxNesting_le_iff.1 (Nat.le_refl _) p hp)
    rw [depth, nesting]
    omega
  | negate condition ih =>
    rw [depth, nesting]
    omega

/-- **A node nests twice at most**: the canonical form has an object for it and
a list in this. -/
theorem nesting_le_two_mul_depth (p : Predicate) : p.nesting ≤ 2 * p.depth := by
  induction p with
  | compare relation key value => exact Nat.le_succ 1
  | member key values => exact Nat.le_refl 2
  | join connective conditions ih =>
    have hconditions : maxNesting conditions ≤ 2 * maxDepth conditions := by
      refine maxNesting_le_iff.2 fun p hp => (ih p hp).trans (Nat.mul_le_mul_left 2 ?_)
      exact maxDepth_le_iff.1 (Nat.le_refl _) p hp
    rw [depth, nesting]
    omega
  | negate condition ih =>
    rw [depth, nesting]
    omega

/-- **The canonical form shows the size of the tree.** The nodes found in it are
as many as the tree has, and the most on one way down are the depth. The form
nests no less than the tree is deep and no more than twice that, and the tree
has a node for every level. As many levels as the form nests are what it takes
to read the text of the form, and if every double in it is legible then it is
the form that is read. So a reader stays within its levels on a tree with a
depth of at most 63, and on no tree with a depth of 128 or more. -/
theorem canonical_shows_size (p : Predicate) :
    p.canonical.nodes.length = p.nodeCount
      ∧ IsGreatest {n | ∃ way, p.canonical.IsWayDown way ∧ way.length = n} p.depth
      ∧ p.depth ≤ p.canonical.nesting
      ∧ p.canonical.nesting ≤ 2 * p.depth
      ∧ p.depth ≤ p.nodeCount
      ∧ TakesLevels p.canonical.nesting (Reading.ofText p.canonical.toText).outline.toJson?
      ∧ ((∀ x, .float x ∈ p.constants → (Number.float x).Legible) →
        ∀ levels, (Reading.ofText p.canonical.toText).outline.toJson? levels
          = if p.canonical.nesting ≤ levels then some p.canonical else none)
      ∧ (p.depth ≤ 63 → p.canonical.nesting ≤ maxLevels)
      ∧ (128 ≤ p.depth → maxLevels < p.canonical.nesting) := by
  have hleast := p.depth_le_nesting
  have hgreatest := p.nesting_le_two_mul_depth
  rw [← nesting_canonical] at hleast hgreatest
  refine ⟨p.length_nodes_canonical, ⟨p.exists_isWayDown_canonical, ?_⟩, hleast, hgreatest,
    p.depth_le_nodeCount, p.canonical.takesLevels_ofText_toText, fun hfloats => ?_,
    fun hdepth => ?_, fun hdepth => ?_⟩
  · rintro n ⟨way, hway, rfl⟩
    exact length_le_depth_of_isWayDown hway rfl
  · exact (legible_canonical hfloats).toJson?_outline_ofText_toText
  · rw [maxLevels]
    omega
  · exact Nat.lt_of_lt_of_le hdepth hleast

/-- Joins one in the other, 63 of them, stay within the levels of a reader, which
reads their form. A leaf whose key and text are spelled like entries of a node
is one node, and under 127 negations it is out of reach. -/
theorem canonical_shows_size_of_towers :
    let joins : Predicate := Nat.repeat (fun p => .join .and [p]) 62 (.join .or [])
    let leaf : Predicate := .compare .equal "op" (.text "conditions")
    (joins.depth = 63 ∧ joins.canonical.nesting ≤ maxLevels
        ∧ (Reading.ofText joins.canonical.toText).outline.toJson? maxLevels = some joins.canonical)
      ∧ leaf.canonical.nodes.length = 1
      ∧ (Nat.repeat negate 127 leaf).depth = 128
      ∧ maxLevels < (Nat.repeat negate 127 leaf).canonical.nesting := by
  intro joins leaf
  have hjoins : joins.depth = 63 := by decide +kernel
  have hnegations : (Nat.repeat negate 127 leaf).depth = 128 := by decide +kernel
  have hleaves : joins.leaves = [] := by decide +kernel
  have hfloats : ∀ x, .float x ∈ joins.constants → (Number.float x).Legible := by
    rw [constants, hleaves]
    exact fun x hx => absurd hx List.not_mem_nil
  obtain ⟨-, -, -, -, -, -, hread, hshallow, -⟩ := canonical_shows_size joins
  obtain ⟨-, -, -, -, -, -, -, -, hdeep⟩ := canonical_shows_size (Nat.repeat negate 127 leaf)
  have hlevels : joins.canonical.nesting ≤ maxLevels := hshallow (Nat.le_of_eq hjoins)
  refine ⟨⟨hjoins, hlevels, ?_⟩, (canonical_shows_size leaf).1, hnegations,
    hdeep (Nat.le_of_eq hnegations.symm)⟩
  rw [hread hfloats, if_pos hlevels]

end Predicate

end FilterTree
