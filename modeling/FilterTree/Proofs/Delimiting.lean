import FilterTree.Proofs.TextDecoding
import FilterTree.Proofs.Writing

/-!
# Texts that say where they end

The text of a tree is the text of an object, and such a text closes with its
last character. Two things follow.

Whatever comes before that character leaves the reading **open**: a value is
still awaited or read, within the arrays and objects around it. So its
outline breaks off (`Scan.IsOpen.breaksOff_outline`), and what that amounts
to is nothing or a bare number (`Outline.BreaksOff.eq_number_of_toJson?`).
Neither is a tree, and a text that has been cut is refused, wherever it was
cut.

After that character the reading is finished. Blanks leave it as it is, and
anything else is remembered as trailing, so the text is refused as well
(`Scan.run_finished_of_blanks`, `Scan.run_finished_of_mem`).

Neither argument looks at the values in the tree, at how deep it nests or at
whether its numbers read back. So both hold of trees whose whole text is
refused, too.
-/

namespace FilterTree

/-! ## The last character -/

/-- The last member of a list is in every part that ends the list, unless
that is empty. -/
theorem mem_of_append_eq_concat {α : Type} {as bs cs : List α} {a : α}
    (h : as ++ bs = cs ++ [a]) (hbs : bs ≠ []) : a ∈ bs := by
  obtain ⟨init, last, rfl⟩ := (List.eq_nil_or_concat bs).resolve_left hbs
  rw [List.concat_eq_append, ← List.append_assoc] at h
  obtain rfl := List.singleton_inj.1 (List.append_inj_right' h rfl)
  simp

namespace Json

/-- What follows a character of a string ends the text of both. -/
theorem suffix_writeChar (c : Char) (rest : List Char) : rest <:+ writeChar c rest := by
  unfold writeChar
  repeat' split
  all_goals simp only [List.suffix_cons_iff, List.suffix_rfl, or_true]

theorem suffix_writeText (s : String) (rest : List Char) : rest <:+ writeText s rest := by
  have hchars : ∀ cs : List Char, '"' :: rest <:+ cs.foldr writeChar ('"' :: rest) := by
    intro cs
    induction cs with
    | nil => exact List.suffix_rfl
    | cons c cs ih => exact ih.trans (suffix_writeChar c _)
  exact ((List.suffix_cons _ _).trans (hchars s.toList)).trans (List.suffix_cons _ _)

theorem suffix_writeItems {items : List Json}
    (h : ∀ j ∈ items, ∀ rest, rest <:+ j.write rest) (rest : List Char) :
    rest <:+ writeItems items rest := by
  induction items with
  | nil =>
    unfold writeItems
    exact List.suffix_rfl
  | cons item items ih =>
    obtain ⟨hitem, hitems⟩ := List.forall_mem_cons.1 h
    rw [writeItems]
    exact ((ih hitems).trans (hitem _)).trans (List.suffix_cons _ _)

theorem suffix_writeEntries {entries : List (String × Json)}
    (h : ∀ entry ∈ entries, ∀ rest, rest <:+ entry.2.write rest) (rest : List Char) :
    rest <:+ writeEntries entries rest := by
  induction entries with
  | nil =>
    unfold writeEntries
    exact List.suffix_rfl
  | cons entry entries ih =>
    obtain ⟨name, value⟩ := entry
    obtain ⟨hvalue, hentries⟩ := List.forall_mem_cons.1 h
    rw [writeEntries]
    exact ((((ih hentries).trans (hvalue _)).trans (List.suffix_cons _ _)).trans
      (suffix_writeText name _)).trans (List.suffix_cons _ _)

/-- The text of an object closes with a brace, if what follows a value of it
ends the text of both. -/
theorem closing_suffix_write {entries : List (String × Json)}
    (h : ∀ entry ∈ entries, ∀ rest, rest <:+ entry.2.write rest) (rest : List Char) :
    '\x7d' :: rest <:+ (object entries).write rest := by
  cases entries with
  | nil =>
    rw [write]
    exact List.suffix_cons _ _
  | cons entry entries =>
    obtain ⟨name, value⟩ := entry
    obtain ⟨hvalue, hentries⟩ := List.forall_mem_cons.1 h
    rw [write]
    exact ((((suffix_writeEntries hentries _).trans (hvalue _)).trans (List.suffix_cons _ _)).trans
      (suffix_writeText name _)).trans (List.suffix_cons _ _)

/-- **What follows a document** ends the text of both. -/
theorem suffix_write (j : Json) (rest : List Char) : rest <:+ j.write rest := by
  induction j generalizing rest with
  | null =>
    rw [write]
    exact List.suffix_append ['n', 'u', 'l', 'l'] rest
  | bool b =>
    cases b with
    | true =>
      rw [write]
      exact List.suffix_append ['t', 'r', 'u', 'e'] rest
    | false =>
      rw [write]
      exact List.suffix_append ['f', 'a', 'l', 's', 'e'] rest
  | number n =>
    rw [write]
    exact List.suffix_append _ rest
  | text s =>
    rw [write]
    exact suffix_writeText s rest
  | array items ih =>
    cases items with
    | nil =>
      rw [write]
      exact List.suffix_append ['[', ']'] rest
    | cons item items =>
      obtain ⟨hitem, hitems⟩ := List.forall_mem_cons.1 ih
      rw [write]
      exact (((List.suffix_cons _ rest).trans (suffix_writeItems hitems _)).trans (hitem _)).trans
        (List.suffix_cons _ _)
  | object entries ih => exact (List.suffix_cons _ rest).trans (closing_suffix_write ih rest)

/-- **The text of an object closes with its last character.** -/
theorem exists_toText_object_eq (entries : List (String × Json)) :
    ∃ before, (object entries).toText.toList = before ++ ['\x7d'] := by
  have hvalues : ∀ entry ∈ entries, ∀ rest, rest <:+ entry.2.write rest :=
    fun entry _ => entry.2.suffix_write
  obtain ⟨before, h⟩ := closing_suffix_write hvalues []
  exact ⟨before, by rw [toText, String.toList_ofList, h]⟩

end Json

/-! ## Open readings -/

/-- **An outline that breaks off**: nothing, a number that might go on, or an
array or object that is not closed. -/
inductive Outline.BreaksOff : Outline → Prop
  /-- No value is here. -/
  | torn : BreaksOff .torn
  /-- A number whose digits may go on. -/
  | numeral (n : Numeral) : BreaksOff (.numeral n)
  /-- An array that is left open. -/
  | array (items : List Outline) : BreaksOff (.array items false)
  /-- An object that is left open. -/
  | object (entries : List (List Piece × Outline)) : BreaksOff (.object entries false)

/-- **What breaks off** has no document but a number. -/
theorem Outline.BreaksOff.eq_number_of_toJson? {o : Outline} (h : o.BreaksOff) {levels : Nat}
    {j : Json} (hj : o.toJson? levels = some j) : ∃ n, j = .number n := by
  cases h with
  | torn => cases hj
  | numeral m =>
    obtain ⟨n, -, rfl⟩ := Option.map_eq_some_iff.1 hj
    exact ⟨n, rfl⟩
  | array items =>
    obtain ⟨_, _, _, _, hclosed, _⟩ := toJson?_array_eq_some_iff.1 hj
    cases hclosed
  | object entries =>
    obtain ⟨_, _, _, _, hclosed, _⟩ := toJson?_object_eq_some_iff.1 hj
    cases hclosed

namespace Scan

/-- **An open reading**: its value is not complete, and nothing is amiss so
far. -/
def IsOpen : Scan → Prop
  | finished _ => False
  | trailing _ => False
  | torn _ => False
  | _ => True

/-- What breaks off also does so within arrays and objects. -/
theorem breaksOff_enclose {o : Outline} (h : o.BreaksOff) (context : List Frame) :
    (enclose o context).BreaksOff := by
  induction context generalizing o with
  | nil => exact h
  | cons frame context ih =>
    cases frame with
    | item before => exact ih (.array _)
    | entry before name => exact ih (.object _)

/-- **The outline of an open reading** breaks off. -/
theorem IsOpen.breaksOff_outline {s : Scan} (h : s.IsOpen) : s.outline.BreaksOff := by
  cases s with
  | finished value => exact absurd h id
  | trailing value => exact absurd h id
  | torn value => exact absurd h id
  | awaiting context => exact breaksOff_enclose .torn context
  | inText literal context => exact breaksOff_enclose .torn context
  | inWord next left value context => exact breaksOff_enclose .torn context
  | firstItem context => exact breaksOff_enclose (.array _) context
  | afterItem items context => exact breaksOff_enclose (.array _) context
  | firstName context => exact breaksOff_enclose (.object _) context
  | nextName entries context => exact breaksOff_enclose (.object _) context
  | inName literal entries context => exact breaksOff_enclose (.object _) context
  | afterName name entries context => exact breaksOff_enclose .torn (.entry entries name :: context)
  | afterEntry entries context => exact breaksOff_enclose (.object _) context
  | inNumeral draft context =>
    cases hend : draft.numeral? with
    | none =>
      simp only [outline, hend]
      exact breaksOff_enclose .torn context
    | some n =>
      simp only [outline, hend]
      exact breaksOff_enclose (.numeral n) context

theorem step_finished (value : Outline) (c : Char) :
    (finished value).step c = if isBlank c then finished value else trailing value := rfl

/-- Blanks after the value change nothing. -/
theorem run_finished_of_blanks (value : Outline) {cs : List Char}
    (h : ∀ c ∈ cs, isBlank c = true) : (finished value).run cs = .finished value := by
  induction cs with
  | nil => rfl
  | cons c cs ih =>
    obtain ⟨hc, hcs⟩ := List.forall_mem_cons.1 h
    rw [run_cons, step_finished, if_pos hc, ih hcs]

/-- **Anything else after the value** is trailing. -/
theorem run_finished_of_mem (value : Outline) {cs : List Char}
    (h : ∃ c ∈ cs, isBlank c = false) : (finished value).run cs = .trailing value := by
  induction cs with
  | nil => simp at h
  | cons c cs ih =>
    rw [run_cons, step_finished]
    split
    · -- the character that is no blank comes later
      rename_i hblank
      obtain ⟨d, hd, hother⟩ := h
      rcases List.mem_cons.1 hd with rfl | hd
      · exact absurd hblank (by simp [hother])
      · exact ih ⟨d, hd, hother⟩
    · exact run_trailing value cs

/-- **A reading is open** if it goes on to be finished and more than blanks
are needed for that. -/
theorem isOpen_of_run_finished {s : Scan} {cs : List Char} {value : Outline}
    (h : s.run cs = .finished value) (hcs : ∃ c ∈ cs, isBlank c = false) : s.IsOpen := by
  cases s with
  | finished other =>
    rw [run_finished_of_mem other hcs] at h
    cases h
  | trailing other =>
    rw [run_trailing] at h
    cases h
  | torn other =>
    rw [run_torn] at h
    cases h
  | _ => exact trivial

end Scan

/-- **A written object is read to its end.** -/
theorem Json.exists_run_toText (entries : List (String × Json)) :
    ∃ o, (Scan.awaiting []).run (object entries).toText.toList = .finished o := by
  obtain ⟨o, ho⟩ := (object entries).exists_readTo
  refine ⟨o, ?_⟩
  rw [toText, String.toList_ofList, ho.run [] [] fun n hn => by cases hn]
  rfl

namespace Predicate

theorem exists_canonical_eq_object (p : Predicate) : ∃ entries, p.canonical = .object entries := by
  cases p <;> exact ⟨_, by rw [canonical]⟩

/-- A text is refused if no document of it denotes a tree. -/
theorem exists_outcome_ofText_eq_error {text : String}
    (h : ∀ j, (Reading.ofText text).toJson? = some j → ∀ p, ¬ j.Denotes .root p) :
    ∃ fault, (ofText text).outcome.1 = .error fault := by
  cases houtcome : (ofText text).outcome.1 with
  | error fault => exact ⟨fault, rfl⟩
  | ok p =>
    obtain ⟨j, hj, hp, -⟩ := outcome_ofText_eq_ok_iff_denotes.1 houtcome
    exact absurd hp (h j hj p)

/-- A text that breaks off is refused. -/
theorem exists_outcome_ofText_eq_error_of_isOpen {text : String}
    (h : (Scan.run (.awaiting []) text.toList).IsOpen) :
    ∃ fault, (ofText text).outcome.1 = .error fault := by
  refine exists_outcome_ofText_eq_error fun j hj p hp => ?_
  have hdocument : (Scan.run (.awaiting []) text.toList).outline.toJson? maxLevels = some j := by
    rw [Reading.toJson?] at hj
    split at hj
    · cases hj
    · exact hj
  obtain ⟨n, rfl⟩ := h.breaksOff_outline.eq_number_of_toJson? hdocument
  cases hp

/-- A text with something trailing is refused. -/
theorem exists_outcome_ofText_eq_error_of_trailing {text : String} {value : Outline}
    (h : Scan.run (.awaiting []) text.toList = .trailing value) :
    ∃ fault, (ofText text).outcome.1 = .error fault := by
  refine exists_outcome_ofText_eq_error fun j hj => ?_
  rw [Reading.ofText, h] at hj
  cases hj

/-- **The text of a tree says where it ends.** Cut anywhere it is refused,
and so it is with anything but blanks after it. With blanks after it the
outcome is that of the text itself. -/
theorem toText_canonical_delimits (p : Predicate) :
    (∀ start rest : String, p.canonical.toText = start ++ rest → rest ≠ "" →
        ∃ fault, (ofText start).outcome.1 = .error fault)
      ∧ (∀ more : String, (∃ c ∈ more.toList, isBlank c = false) →
        ∃ fault, (ofText (p.canonical.toText ++ more)).outcome.1 = .error fault)
      ∧ (∀ blanks : String, (∀ c ∈ blanks.toList, isBlank c = true) →
        (ofText (p.canonical.toText ++ blanks)).outcome = (ofText p.canonical.toText).outcome) := by
  obtain ⟨entries, hcanonical⟩ := p.exists_canonical_eq_object
  rw [hcanonical]
  obtain ⟨o, ho⟩ := Json.exists_run_toText entries
  refine ⟨fun start rest htext hrest => ?_, fun more hmore => ?_, fun blanks hblanks => ?_⟩
  · -- the brace at the end is in what has been cut off
    obtain ⟨before, hbrace⟩ := Json.exists_toText_object_eq entries
    rw [htext, String.toList_append] at ho hbrace
    rw [Scan.run_append] at ho
    have hmem : '\x7d' ∈ rest.toList :=
      mem_of_append_eq_concat hbrace fun hnil => hrest (String.toList_eq_nil_iff.1 hnil)
    exact exists_outcome_ofText_eq_error_of_isOpen
      (Scan.isOpen_of_run_finished ho ⟨_, hmem, rfl⟩)
  · have htrailing : Scan.run (.awaiting [])
        ((Json.object entries).toText ++ more).toList = .trailing o := by
      rw [String.toList_append, Scan.run_append, ho, Scan.run_finished_of_mem o hmore]
    exact exists_outcome_ofText_eq_error_of_trailing htrailing
  · have hreading : Reading.ofText ((Json.object entries).toText ++ blanks)
        = Reading.ofText (Json.object entries).toText := by
      rw [Reading.ofText, Reading.ofText, String.toList_append, Scan.run_append, ho,
        Scan.run_finished_of_blanks o hblanks]
    rw [ofText, ofText, hreading]

/-- A comparison with a text that closes brackets and holds a quote: cut after
these brackets it is refused, and so it is with one more brace after it. A
line end after it does no harm. -/
theorem toText_canonical_delimits_of_brackets_in_text :
    let p : Predicate := .compare .equal "k" (.text "]\x7d\"")
    let start := "\x7b\"key\":\"k\",\"op\":\"EQ\",\"value\":\"]\x7d"
    p.canonical.toText = start ++ "\\\"\"\x7d"
      ∧ (∃ fault, (ofText start).outcome.1 = .error fault)
      ∧ (∃ fault, (ofText (p.canonical.toText ++ "\x7d")).outcome.1 = .error fault)
      ∧ (ofText (p.canonical.toText ++ "\n")).outcome = (ofText p.canonical.toText).outcome := by
  intro p start
  have htext : p.canonical.toText = start ++ "\\\"\"\x7d" := by decide +kernel
  obtain ⟨hcut, hextended, hblanks⟩ := toText_canonical_delimits p
  have hblank : ∀ c ∈ "\n".toList, isBlank c = true := by
    simp only [String.reduceToList, List.forall_mem_singleton]
    rfl
  exact ⟨htext, hcut start _ htext (by decide), hextended "\x7d" ⟨'\x7d', by decide, rfl⟩,
    hblanks "\n" hblank⟩

end Predicate

end FilterTree
