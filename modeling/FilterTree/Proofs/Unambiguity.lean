import FilterTree.Predicate.Display
import FilterTree.Proofs.Quotations

/-!
# Trees told by their texts

The text of a tree for people has little in it that says what is what. Keys are
not quoted, a negation is a word in front, a join of no conditions is a word and
nothing else. So `NOT IN [1]` looks up a key and `NOT IN = 1` negates a
comparison of one, and a text in quotes may look like all of this at once. On
**ordinary** trees (`Predicate.IsOrdinary`) the text tells the tree nevertheless
(`Predicate.toText_eq_iff`).

The reason is that the beginning of a text tells the operator of the root. Its
first word does not, since a key may be spelled like any word of the language.
But after a key comes a sign, or `IN` with its bracket, and neither the condition
of a negation nor anything that may follow an empty join begins like this
(`IsOrdinary.operatorAhead?_afterWord`). With the operator settled the rest is
read from left to right, where every part ends by itself: a key at the blank, a
value by what it is (`Value.display_inj`), a list at its bracket, a join at its
parenthesis. An operand is therefore never looked at alone but in front of what
may follow it, and this is what the induction is on (`Predicate.ReadsUniquely`).

The trees left out are those with texts that other trees have too. A join of one
condition does not show how it joins, and a double or an unsigned word may look
like a signed word.
-/

namespace FilterTree

/-! ## Ordinary trees -/

/-- **A name**, as keys mostly are: letters and digits of ASCII and underscores,
one at least. The words that texts are made of are names like others. -/
def IsName (key : String) : Prop :=
  key ≠ "" ∧ ∀ c ∈ key.toList, c.isAlphanum = true ∨ c = '_'

theorem IsName.isWord {key : String} (h : IsName key) : IsWord key.toList := by
  intro c hc
  rcases h.2 c hc with hc | rfl
  · rw [isWordChar, hc, Bool.true_or, Bool.true_or]
  · rfl

theorem IsName.toList_ne_nil {key : String} (h : IsName key) : key.toList ≠ [] :=
  fun hnil => h.1 (String.toList_eq_nil_iff.1 hnil)

namespace Predicate

/-- **An ordinary tree**: its keys are names, its values are ordinary, and each of
its joins has no condition or two at least. -/
inductive IsOrdinary : Predicate → Prop
  /-- A comparison of a name with an ordinary value. -/
  | compare (relation : Relation) {key : String} {value : Value} (name : IsName key)
    (plain : value.IsOrdinary) : IsOrdinary (.compare relation key value)
  /-- A name that is looked up in ordinary values. -/
  | member {key : String} {values : List Value} (name : IsName key)
    (plain : ∀ v ∈ values, v.IsOrdinary) : IsOrdinary (.member key values)
  /-- A join of no conditions. -/
  | unit (connective : Connective) : IsOrdinary (.join connective [])
  /-- A join of two conditions or more. -/
  | join (connective : Connective) {p q : Predicate} {ps : List Predicate}
    (parts : ∀ condition ∈ p :: q :: ps, IsOrdinary condition) :
    IsOrdinary (.join connective (p :: q :: ps))
  /-- A negation. -/
  | negate {condition : Predicate} (part : IsOrdinary condition) : IsOrdinary (.negate condition)

/-- **What may follow a tree** in a text. -/
inductive MayFollow : List Char → Prop
  /-- Nothing. -/
  | nothing : MayFollow []
  /-- The closing parenthesis of a join. -/
  | closing (rest : List Char) : MayFollow (')' :: rest)
  /-- The word in front of the next condition of a join. -/
  | next (connective : Connective) (rest : List Char) :
    MayFollow (' ' :: (connective.word ++ ' ' :: rest))

variable {p q : Predicate} {r s : List Char}

/-- What follows a tree ends a word. -/
theorem MayFollow.endsWord (h : MayFollow r) : EndsWord r := by
  cases h with
  | nothing => rfl
  | closing rest => exact endsWord_cons rfl rest
  | next connective rest => exact endsWord_cons rfl _

/-! ## The first word -/

/-- **The first word** of the text of a tree. A text that begins with a
parenthesis has none. -/
def firstWord : Predicate → List Char
  | .compare _ key _ => key.toList
  | .member key _ => key.toList
  | .join connective [] => connective.unit
  | .join _ (_ :: _) => []
  | .negate _ => ['N', 'O', 'T']

/-- **The text after the first word**, in front of what follows. -/
def afterWord : Predicate → List Char → List Char
  | .compare relation _ value, rest => ' ' :: relation.sign :: ' ' :: value.display rest
  | .member _ values, rest =>
    ' ' :: 'I' :: 'N' :: ' ' :: '[' :: displayValues values (']' :: rest)
  | .join _ [], rest => rest
  | .join connective (p :: ps), rest => '(' :: p.display (displayJoined connective ps (')' :: rest))
  | .negate condition, rest => ' ' :: condition.display rest

/-- A text is its first word and what comes after that. -/
theorem display_eq (p : Predicate) (rest : List Char) :
    p.display rest = p.firstWord ++ p.afterWord rest := by
  cases p with
  | compare relation key value => rw [display, firstWord, afterWord]
  | member key values => rw [display, firstWord, afterWord]
  | join connective conditions =>
    cases conditions with
    | nil => rw [display, firstWord, afterWord]
    | cons p ps => rw [display, firstWord, afterWord, List.nil_append]
  | negate condition =>
    rw [display, firstWord, afterWord]
    rfl

theorem isWord_unit (connective : Connective) : IsWord connective.unit := by
  cases connective <;> exact List.all_eq_true.1 rfl

theorem IsOrdinary.isWord_firstWord (hp : p.IsOrdinary) : IsWord p.firstWord := by
  cases hp with
  | compare relation name plain => exact name.isWord
  | member name plain => exact name.isWord
  | unit connective => exact isWord_unit connective
  | join connective parts => exact List.forall_mem_nil _
  | negate part => exact List.all_eq_true.1 rfl

theorem endsWord_afterWord (p : Predicate) (hr : MayFollow r) : EndsWord (p.afterWord r) := by
  cases p with
  | compare relation key value => exact endsWord_cons rfl _
  | member key values => exact endsWord_cons rfl _
  | join connective conditions =>
    cases conditions with
    | nil => exact hr.endsWord
    | cons p ps => exact endsWord_cons rfl _
  | negate condition => exact endsWord_cons rfl _

/-- A text begins with a word or with a parenthesis. -/
theorem IsOrdinary.display_ne_cons (hp : p.IsOrdinary) {c : Char} (hc : isWordChar c = false)
    (hparen : '(' ≠ c) (r cs : List Char) : p.display r ≠ c :: cs := by
  have hword : IsWord p.firstWord := hp.isWord_firstWord
  rw [display_eq]
  cases hp with
  | compare relation name plain => exact hword.append_ne_cons name.toList_ne_nil hc _ _
  | member name plain => exact hword.append_ne_cons name.toList_ne_nil hc _ _
  | unit connective =>
    refine hword.append_ne_cons ?_ hc _ _
    cases connective <;> exact List.cons_ne_nil _ _
  | join connective parts => exact fun h => hparen (List.cons.inj h).1
  | negate part => exact hword.append_ne_cons (List.cons_ne_nil _ _) hc _ _

/-! ## The operator of the root -/

/-- **No text begins like the list of a lookup.** It may begin with the word, as a
key, but then a sign or the word once more comes after it and not the
bracket. -/
theorem IsOrdinary.display_ne_lookup (hp : p.IsOrdinary) (hr : MayFollow r) (cs : List Char) :
    p.display r ≠ 'I' :: 'N' :: ' ' :: '[' :: cs := by
  intro h
  rw [display_eq] at h
  have hin : IsWord ['I', 'N'] := List.all_eq_true.1 rfl
  obtain ⟨hword, hafter⟩ := hp.isWord_firstWord.append_inj hin (endsWord_afterWord p hr)
    (endsWord_cons rfl _) h
  cases hp with
  | compare relation name plain => cases relation <;> cases hafter
  | member name plain => cases hafter
  | unit connective => cases connective <;> cases hword
  | join connective parts => cases hword
  | negate part => cases hword

/-- The operator of a tree whose first word is no key. -/
def operatorOfWord? (word : List Char) : Option Operator :=
  if word = ['N', 'O', 'T'] then some .negate
  else if word = Connective.unit .and then some (.join .and)
  else if word = Connective.unit .or then some (.join .or)
  else none

/-- **The operator that the beginning of a text tells**: what comes after the first
word tells that of a leaf, and otherwise the word does. A parenthesis does not
tell how a join joins. -/
def operatorAhead? (word : List Char) : List Char → Option Operator
  | '(' :: _ => none
  | ' ' :: '=' :: _ => some (.compare .equal)
  | ' ' :: '>' :: _ => some (.compare .greater)
  | ' ' :: '<' :: _ => some (.compare .less)
  | ' ' :: 'I' :: 'N' :: ' ' :: '[' :: _ => some .member
  | _ => operatorOfWord? word

/-- The operator of the root, unless the text begins with a parenthesis. -/
def toldOperator? : Predicate → Option Operator
  | .compare relation _ _ => some (.compare relation)
  | .member _ _ => some .member
  | .join connective [] => some (.join connective)
  | .join _ (_ :: _) => none
  | .negate _ => some .negate

/-- **The beginning of a text tells the operator** of the root. -/
theorem IsOrdinary.operatorAhead?_afterWord (hp : p.IsOrdinary) (hr : MayFollow r) :
    operatorAhead? p.firstWord (p.afterWord r) = p.toldOperator? := by
  cases hp with
  | compare relation name plain => cases relation <;> rfl
  | member name plain => rfl
  | unit connective =>
    cases hr with
    | nothing => cases connective <;> rfl
    | closing rest => cases connective <;> rfl
    | next other rest => cases connective <;> cases other <;> rfl
  | join connective parts => rfl
  | negate part =>
    -- the condition begins with none of the signs, and not like a list
    rw [firstWord, afterWord, toldOperator?, operatorAhead?]
    · rfl
    · rintro tail h
      cases h
    · exact fun tail h => part.display_ne_cons rfl (by decide) _ _ (List.cons.inj h).2
    · exact fun tail h => part.display_ne_cons rfl (by decide) _ _ (List.cons.inj h).2
    · exact fun tail h => part.display_ne_cons rfl (by decide) _ _ (List.cons.inj h).2
    · exact fun tail h => part.display_ne_lookup hr _ (List.cons.inj h).2

/-- **Texts that begin alike** agree in their first word, in what comes after it
and in the operator that both tell. -/
theorem IsOrdinary.beginning_eq (hp : p.IsOrdinary) (hq : q.IsOrdinary) (hr : MayFollow r)
    (hs : MayFollow s) (h : p.display r = q.display s) :
    p.firstWord = q.firstWord ∧ p.afterWord r = q.afterWord s
      ∧ p.toldOperator? = q.toldOperator? := by
  rw [display_eq, display_eq] at h
  obtain ⟨hword, hafter⟩ := hp.isWord_firstWord.append_inj hq.isWord_firstWord
    (endsWord_afterWord p hr) (endsWord_afterWord q hs) h
  refine ⟨hword, hafter, ?_⟩
  rw [← hp.operatorAhead?_afterWord hr, hword, hafter, hq.operatorAhead?_afterWord hs]

/-! ## Lists of values -/

theorem displayMore_eq_foldr (vs : List Value) (rest : List Char) :
    displayMore vs rest = vs.foldr (fun v cs => ',' :: ' ' :: v.display cs) rest := by
  induction vs with
  | nil => rfl
  | cons v vs ih => rw [displayMore, List.foldr_cons, ih]

/-- The values after the first are told up to the bracket. -/
theorem displayMore_inj {vs ws : List Value} (hvs : ∀ v ∈ vs, v.IsOrdinary)
    (hws : ∀ w ∈ ws, w.IsOrdinary)
    (h : displayMore vs (']' :: r) = displayMore ws (']' :: s)) : vs = ws ∧ r = s := by
  rw [displayMore_eq_foldr, displayMore_eq_foldr] at h
  refine foldr_write_inj EndsWord ?_ (fun _ _ => endsWord_cons rfl _)
    (fun _ => endsWord_cons rfl _) ?_ h
  · exact fun v cs ds h => absurd (List.cons.inj h).1 (by decide)
  · intro v hv w hw cs ds hcs hds h
    rw [List.cons.injEq, List.cons.injEq] at h
    exact Value.display_inj (hvs v hv) (hws w hw) hcs hds h.2.2

/-- **A list of values** is told up to its bracket. -/
theorem displayValues_inj {vs ws : List Value} (hvs : ∀ v ∈ vs, v.IsOrdinary)
    (hws : ∀ w ∈ ws, w.IsOrdinary)
    (h : displayValues vs (']' :: r) = displayValues ws (']' :: s)) : vs = ws ∧ r = s := by
  cases vs with
  | nil =>
    cases ws with
    | nil => exact ⟨rfl, (List.cons.inj h).2⟩
    | cons w ws =>
      exact absurd h.symm ((hws w List.mem_cons_self).display_ne_cons rfl (by decide) _ _)
  | cons v vs =>
    cases ws with
    | nil => exact absurd h ((hvs v List.mem_cons_self).display_ne_cons rfl (by decide) _ _)
    | cons w ws =>
      -- with a comma in front the first value is one of the others
      refine displayMore_inj hvs hws ?_
      rw [displayMore, displayMore]
      exact congrArg (fun cs => ',' :: ' ' :: cs) h

/-! ## Trees -/

/-- **A tree that reads uniquely**: a text that begins with it, and goes on with
what may follow it, begins with no other ordinary tree, and there is one rest of
it. -/
def ReadsUniquely (p : Predicate) : Prop :=
  ∀ ⦃q r s⦄, q.IsOrdinary → MayFollow r → MayFollow s → p.display r = q.display s → p = q ∧ r = s

theorem displayJoined_eq_foldr (connective : Connective) (ps : List Predicate)
    (rest : List Char) :
    displayJoined connective ps rest
      = ps.foldr (fun p cs => ' ' :: (connective.word ++ ' ' :: p.display cs)) rest := by
  induction ps with
  | nil => rfl
  | cons p ps ih => rw [displayJoined, List.foldr_cons, ih]

/-- What comes after a condition of a join may follow a tree. -/
theorem mayFollow_displayJoined (connective : Connective) (ps : List Predicate)
    (rest : List Char) : MayFollow (displayJoined connective ps (')' :: rest)) := by
  cases ps with
  | nil => exact .closing rest
  | cons p ps => exact .next connective _

/-- **The conditions of a join** after the first are told up to the parenthesis. -/
theorem displayJoined_inj {connective : Connective} {ps qs : List Predicate}
    (hps : ∀ p ∈ ps, p.ReadsUniquely) (hqs : ∀ q ∈ qs, q.IsOrdinary)
    (h : displayJoined connective ps (')' :: r) = displayJoined connective qs (')' :: s)) :
    ps = qs ∧ r = s := by
  rw [displayJoined_eq_foldr, displayJoined_eq_foldr] at h
  refine foldr_write_inj MayFollow ?_ (fun _ _ => .next connective _) .closing ?_ h
  · exact fun p cs ds h => absurd (List.cons.inj h).1 (by decide)
  · intro p hp q hq cs ds hcs hds h
    rw [List.cons.injEq, List.append_cancel_left_eq, List.cons.injEq] at h
    exact hps p hp (hqs q hq) hcs hds h.2.2

/-- The second condition of a join shows how the join joins. -/
theorem connective_eq_of_displayJoined_eq {c d : Connective} {ps qs : List Predicate}
    (h : displayJoined c (p :: ps) r = displayJoined d (q :: qs) s) : c = d := by
  rw [displayJoined, displayJoined, List.cons.injEq] at h
  cases c <;> cases d
  · rfl
  · exact absurd (List.cons.inj h.2).1 (by decide)
  · exact absurd (List.cons.inj h.2).1 (by decide)
  · rfl

/-! Every form of a tree reads uniquely if its parts do. The operator leaves this
form for the other tree, and the parts are told in their order. -/

/-- A comparison reads uniquely. -/
theorem readsUniquely_compare (relation : Relation) {key : String} {value : Value}
    (name : IsName key) (plain : value.IsOrdinary) :
    (compare relation key value).ReadsUniquely := by
  intro q r s hq hr hs h
  obtain ⟨hword, hafter, htold⟩ :=
    (IsOrdinary.compare relation name plain).beginning_eq hq hr hs h
  cases hq
  case compare name' plain' =>
    simp only [afterWord, List.cons.injEq, true_and] at hafter
    obtain ⟨rfl, hrest⟩ := Value.display_inj plain plain' hr.endsWord hs.endsWord hafter.2
    obtain rfl := String.toList_inj.1 hword
    obtain rfl := Operator.compare.inj (Option.some.inj htold)
    exact ⟨rfl, hrest⟩
  all_goals cases htold

/-- A lookup reads uniquely. -/
theorem readsUniquely_member {key : String} {values : List Value} (name : IsName key)
    (plain : ∀ v ∈ values, v.IsOrdinary) : (member key values).ReadsUniquely := by
  intro q r s hq hr hs h
  obtain ⟨hword, hafter, htold⟩ := (IsOrdinary.member name plain).beginning_eq hq hr hs h
  cases hq
  case member name' plain' =>
    simp only [afterWord, List.cons.injEq, true_and] at hafter
    obtain ⟨rfl, hrest⟩ := displayValues_inj plain plain' hafter
    obtain rfl := String.toList_inj.1 hword
    exact ⟨rfl, hrest⟩
  all_goals cases htold

/-- A join of no conditions reads uniquely. -/
theorem readsUniquely_unit (connective : Connective) : (join connective []).ReadsUniquely := by
  intro q r s hq hr hs h
  obtain ⟨-, hafter, htold⟩ := (IsOrdinary.unit connective).beginning_eq hq hr hs h
  cases hq
  case unit other =>
    obtain rfl := Operator.join.inj (Option.some.inj htold)
    exact ⟨rfl, hafter⟩
  all_goals cases htold

/-- **A join of two conditions or more** reads uniquely if its conditions do. -/
theorem readsUniquely_join (connective : Connective) {ps : List Predicate}
    (parts : ∀ condition ∈ p :: q :: ps, condition.IsOrdinary)
    (ih : ∀ condition ∈ p :: q :: ps, condition.ReadsUniquely) :
    (join connective (p :: q :: ps)).ReadsUniquely := by
  intro p' r s hp' hr hs h
  obtain ⟨-, hafter, htold⟩ := (IsOrdinary.join connective parts).beginning_eq hp' hr hs h
  cases hp'
  case join other parts' =>
    rw [afterWord, afterWord, List.cons.injEq] at hafter
    rw [List.forall_mem_cons] at ih parts'
    obtain ⟨rfl, hmore⟩ := ih.1 parts'.1 (mayFollow_displayJoined _ _ _)
      (mayFollow_displayJoined _ _ _) hafter.2
    -- the connective stands in front of the second condition
    obtain rfl := connective_eq_of_displayJoined_eq hmore
    obtain ⟨hconditions, hrest⟩ := displayJoined_inj ih.2 parts'.2 hmore
    rw [hconditions]
    exact ⟨rfl, hrest⟩
  all_goals cases htold

/-- A negation reads uniquely if its condition does. -/
theorem readsUniquely_negate (part : p.IsOrdinary) (ih : p.ReadsUniquely) :
    (negate p).ReadsUniquely := by
  intro q r s hq hr hs h
  obtain ⟨-, hafter, htold⟩ := (IsOrdinary.negate part).beginning_eq hq hr hs h
  cases hq
  case negate part' =>
    rw [afterWord, afterWord, List.cons.injEq] at hafter
    obtain ⟨rfl, hrest⟩ := ih part' hr hs hafter.2
    exact ⟨rfl, hrest⟩
  all_goals cases htold

/-- **Ordinary trees read uniquely.** -/
theorem IsOrdinary.readsUniquely (hp : p.IsOrdinary) : p.ReadsUniquely := by
  induction hp with
  | compare relation name plain => exact readsUniquely_compare relation name plain
  | member name plain => exact readsUniquely_member name plain
  | unit connective => exact readsUniquely_unit connective
  | join connective parts ih => exact readsUniquely_join connective parts ih
  | negate part ih => exact readsUniquely_negate part ih

/-- **The text of an ordinary tree tells the tree**: ordinary trees have the same
text for people only if they are the same. -/
theorem toText_eq_iff (hp : p.IsOrdinary) (hq : q.IsOrdinary) : p.toText = q.toText ↔ p = q := by
  constructor
  · intro h
    exact (hp.readsUniquely hq .nothing .nothing (String.ofList_injective h)).1
  · intro h
    rw [h]

/-- A key spelled like a negation, and a negation of a key spelled like a lookup.
Both look up in the same list, with a text in it that would close the list and
open another one if it were not quoted. -/
theorem toText_eq_iff_of_look_alikes :
    let values : List Value := [.text "\"] AND NOT IN [\x00", .int (-1)]
    let p : Predicate := .pair .and (.member "NOT" values) (.join .or [])
    let q : Predicate := .pair .and (.negate (.member "IN" values)) (.join .or [])
    p.IsOrdinary ∧ q.IsOrdinary
      ∧ p.toText = "(NOT IN [\"\\\"] AND NOT IN [\\0\", -1] AND FALSE)"
      ∧ q.toText = "(NOT IN IN [\"\\\"] AND NOT IN [\\0\", -1] AND FALSE)"
      ∧ p.toText ≠ q.toText := by
  intro values p q
  have hvalues : ∀ v ∈ values, v.IsOrdinary :=
    List.forall_mem_cons.2 ⟨trivial, List.forall_mem_singleton.2 trivial⟩
  have hnot : IsName "NOT" := ⟨by decide, by simp⟩
  have hin : IsName "IN" := ⟨by decide, by simp⟩
  have hp : p.IsOrdinary := .join .and (List.forall_mem_cons.2
    ⟨.member hnot hvalues, List.forall_mem_singleton.2 (.unit .or)⟩)
  have hq : q.IsOrdinary := .join .and (List.forall_mem_cons.2
    ⟨.negate (.member hin hvalues), List.forall_mem_singleton.2 (.unit .or)⟩)
  refine ⟨hp, hq, by decide +kernel, by decide +kernel, ?_⟩
  intro h
  have heq : p = q := (toText_eq_iff hp hq).1 h
  cases (List.cons.inj (Predicate.join.inj heq).2).1

end Predicate

end FilterTree
