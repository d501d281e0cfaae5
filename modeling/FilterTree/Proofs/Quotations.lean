import FilterTree.Proofs.UniqueTexts
import Mathlib.Data.List.TakeWhile

/-!
# Values told by their texts

The text of a value for people is a **word** or a quotation. A word is made of
letters, digits, underscores and minus signs, so it ends at the first other
character (`IsWord.append_inj`). A quotation ends at its closing quote, and any
quote inside of it follows a backslash. Whatever stands between the quotes, one
character after the other can be taken off again (`takeShown?_showChar`), also
those given by their numbers.

Two values may have the same word all the same. A double without a fraction is
shown like the integer, and so is an unsigned word like the signed word of the
same number. Without these a text tells its value, and where the value ends
(`Value.display_inj`). For words this is no new argument: what people see is
then the JSON text, and that has one document.
-/

namespace FilterTree

/-! ## Words -/

/-- **The characters of words**: the letters and digits of ASCII, the
underscore and the minus sign. -/
def isWordChar (c : Char) : Bool := c.isAlphanum || c = '_' || c = '-'

/-- **A word**: characters of words and no others, perhaps none. -/
def IsWord (cs : List Char) : Prop := ∀ c ∈ cs, isWordChar c = true

/-- **What may follow a word**: nothing that goes on with it. -/
def EndsWord (rest : List Char) : Prop := rest.takeWhile isWordChar = []

/-- A word is not gone on with by a character that is not of words. -/
theorem endsWord_cons {c : Char} (h : isWordChar c = false) (rest : List Char) :
    EndsWord (c :: rest) :=
  List.takeWhile_cons_of_neg (Bool.eq_false_iff.1 h)

/-- A word is taken off what it stands in front of. -/
theorem IsWord.takeWhile_append {word rest : List Char} (hword : IsWord word)
    (hrest : EndsWord rest) : (word ++ rest).takeWhile isWordChar = word := by
  rw [List.takeWhile_append_of_pos hword, hrest, List.append_nil]

/-- **A text that begins with a word** begins with no other, and there is one
rest of it. -/
theorem IsWord.append_inj {v w r s : List Char} (hv : IsWord v) (hw : IsWord w)
    (hr : EndsWord r) (hs : EndsWord s) (h : v ++ r = w ++ s) : v = w ∧ r = s := by
  have hword : v = w := by
    rw [← hv.takeWhile_append hr, h, hw.takeWhile_append hs]
  rw [hword] at h
  exact ⟨hword, List.append_cancel_left h⟩

/-- A text that begins with a word begins with a character of words, unless the
word is empty. -/
theorem IsWord.append_ne_cons {word : List Char} (hword : IsWord word) (hne : word ≠ []) {c : Char}
    (hc : isWordChar c = false) (rest cs : List Char) : word ++ rest ≠ c :: cs := by
  obtain ⟨d, ds, rfl⟩ := List.exists_cons_of_ne_nil hne
  intro h
  have hd : isWordChar d = true := hword d List.mem_cons_self
  rw [(List.cons.inj h).1, hc] at hd
  exact Bool.false_ne_true hd

/-! ## Items up to a closing character -/

/-- **Items written one after the other**, up to a closing character. If none of
them begins with that character and each is told apart from the others in front
of what may follow it, then a text that begins with some items up to there
begins with no others, and there is one rest of it. -/
theorem foldr_write_inj {α : Type} {write : α → List Char → List Char}
    (Ends : List Char → Prop) {closing : Char} {as bs : List α} {r s : List Char}
    (hopen : ∀ a cs ds, write a cs ≠ closing :: ds) (hends : ∀ a cs, Ends (write a cs))
    (hclosing : ∀ cs, Ends (closing :: cs))
    (hitem : ∀ a ∈ as, ∀ b ∈ bs, ∀ cs ds, Ends cs → Ends ds → write a cs = write b ds →
      a = b ∧ cs = ds)
    (h : as.foldr write (closing :: r) = bs.foldr write (closing :: s)) : as = bs ∧ r = s := by
  have hrest : ∀ (cs : List α) (rest : List Char), Ends (cs.foldr write (closing :: rest)) := by
    intro cs rest
    cases cs with
    | nil => exact hclosing rest
    | cons c cs => exact hends c _
  induction as generalizing bs with
  | nil =>
    cases bs with
    | nil => exact ⟨rfl, (List.cons.inj h).2⟩
    | cons b bs => exact absurd h.symm (hopen b _ _)
  | cons a as ih =>
    cases bs with
    | nil => exact absurd h (hopen a _ _)
    | cons b bs =>
      obtain ⟨rfl, hmore⟩ :=
        hitem a List.mem_cons_self b List.mem_cons_self _ _ (hrest as r) (hrest bs s) h
      have hlater : ∀ a' ∈ as, ∀ b' ∈ bs, ∀ cs ds, Ends cs → Ends ds → write a' cs = write b' ds →
          a' = b' ∧ cs = ds := fun a' ha b' hb =>
        hitem a' (List.mem_cons_of_mem a ha) b' (List.mem_cons_of_mem a hb)
      obtain ⟨rfl, hend⟩ := ih hlater hmore
      exact ⟨rfl, hend⟩

/-! ## Spellings -/

theorem isWordChar_digitChar {d : Nat} (h : d < 16) : isWordChar (digitChar d) = true := by
  have all : ∀ n : Fin 16, isWordChar (digitChar n.val) = true := by decide
  exact all ⟨d, h⟩

/-- **A spelling is a word**, in base sixteen and in smaller ones. -/
theorem isWord_spelling {base : Nat} (hbase : 1 < base) (hle : base ≤ 16) (n : Nat) :
    IsWord (spelling base n) := by
  induction n using Nat.strongRecOn with
  | ind n ih =>
    rw [spelling]
    split
    · have hlast : n % base < 16 := Nat.lt_of_lt_of_le (Nat.mod_lt n (by omega)) hle
      rw [IsWord, List.forall_mem_append, List.forall_mem_singleton]
      exact ⟨ih _ (Nat.div_lt_self (by omega) hbase), isWordChar_digitChar hlast⟩
    · rw [IsWord, List.forall_mem_singleton]
      exact isWordChar_digitChar (by omega)

theorem isWord_signedDigits (n : Int) : IsWord (signedDigits n) := by
  cases n with
  | ofNat n => exact isWord_spelling (by decide) (by decide) n
  | negSucc n =>
    rw [signedDigits, IsWord, List.forall_mem_cons]
    exact ⟨rfl, isWord_spelling (by decide) (by decide) (n + 1)⟩

theorem signedDigits_ne_nil (n : Int) : signedDigits n ≠ [] := by
  cases n with
  | ofNat n =>
    rw [signedDigits, digits, spelling]
    split
    · exact List.append_ne_nil_of_right_ne_nil _ (List.cons_ne_nil _ _)
    · exact List.cons_ne_nil _ _
  | negSucc n => exact List.cons_ne_nil _ _

/-- **The number** that hexadecimal digits spell. -/
def ofHexadecimal (cs : List Char) : Nat :=
  cs.foldl (fun n c => 16 * n + (Quoted.hexValue? c).getD 0) 0

/-- **The hexadecimal spelling** of a number spells it. -/
@[simp] theorem ofHexadecimal_spelling (n : Nat) : ofHexadecimal (spelling 16 n) = n := by
  induction n using Nat.strongRecOn with
  | ind n ih =>
    rw [spelling]
    split
    · have hquotient := ih (n / 16) (Nat.div_lt_self (by omega) (by decide))
      rw [ofHexadecimal] at hquotient
      rw [ofHexadecimal, List.foldl_append, hquotient, List.foldl_cons, List.foldl_nil,
        Quoted.hexValue?_digitChar (Nat.mod_lt n (by decide)), Option.getD_some, Nat.div_add_mod]
    · rw [ofHexadecimal, List.foldl_cons, List.foldl_nil, Quoted.hexValue?_digitChar (by omega),
        Option.getD_some, Nat.mul_zero, Nat.zero_add]

/-! ## Quotations -/

/-- **Taking one character** off the inside of a quotation, unless its closing
quote comes first. -/
def takeShown? : List Char → Option (Char × List Char)
  | [] => none
  | '"' :: _ => none
  | '\\' :: '0' :: rest => some ('\x00', rest)
  | '\\' :: 't' :: rest => some ('\t', rest)
  | '\\' :: 'n' :: rest => some ('\n', rest)
  | '\\' :: 'r' :: rest => some ('\r', rest)
  | '\\' :: 'u' :: '\x7b' :: rest =>
    some (Char.ofNat (ofHexadecimal (rest.takeWhile isWordChar)),
      (rest.dropWhile isWordChar).tail)
  | '\\' :: c :: rest => some (c, rest)
  | c :: rest => some (c, rest)

/-- **What is shown of a character** gives the character back, and what follows
it. -/
@[simp] theorem takeShown?_showChar (c : Char) (rest : List Char) :
    takeShown? (showChar c rest) = some (c, rest) := by
  unfold showChar
  split_ifs with hquote hbackslash hnull htab hline hreturn hunprintable
  · rw [hquote]; rfl
  · rw [hbackslash]; rfl
  · rw [hnull]; rfl
  · rw [htab]; rfl
  · rw [hline]; rfl
  · rw [hreturn]; rfl
  · -- the number of the character ends at the brace
    have hword : IsWord (spelling 16 c.toNat) := isWord_spelling (by decide) (by decide) c.toNat
    have hbrace : EndsWord ('\x7d' :: rest) := endsWord_cons rfl rest
    rw [takeShown?, hword.takeWhile_append hbrace, List.dropWhile_append_of_pos hword,
      List.dropWhile_cons_of_neg (by decide), ofHexadecimal_spelling, Char.ofNat_toNat,
      List.tail_cons]
  · simp [takeShown?, hbackslash]

/-- What is shown of a character begins with no other. -/
theorem showChar_inj {c d : Char} {r s : List Char} (h : showChar c r = showChar d s) :
    c = d ∧ r = s := by
  have htake := congrArg takeShown? h
  rw [takeShown?_showChar, takeShown?_showChar, Option.some.injEq, Prod.mk.injEq] at htake
  exact htake

theorem showChar_ne_quote (c : Char) (r s : List Char) : showChar c r ≠ '"' :: s := by
  intro h
  have htake := congrArg takeShown? h
  rw [takeShown?_showChar, takeShown?] at htake
  exact Option.some_ne_none _ htake

/-- **A text that begins with a quotation** begins with no other. -/
theorem quotation_inj {s t : String} {r r' : List Char} (h : quotation s r = quotation t r') :
    s = t ∧ r = r' := by
  obtain ⟨hchars, hrest⟩ := foldr_write_inj (fun _ => True) showChar_ne_quote
    (fun _ _ => trivial) (fun _ => trivial) (fun _ _ _ _ _ _ _ _ => showChar_inj)
    (List.cons.inj h).2
  exact ⟨String.toList_inj.1 hchars, hrest⟩

/-! ## Values -/

namespace Value

variable {v w : Value}

/-- **An ordinary value**: no double, and an unsigned word only if no signed one
can hold it. -/
def IsOrdinary : Value → Prop
  | .null => True
  | .bool _ => True
  | .int _ => True
  | .uint n => 0x8000000000000000 ≤ n.toNat
  | .float _ => False
  | .text _ => True

theorem IsOrdinary.normalize_eq (hv : v.IsOrdinary) : v.normalize = v := by
  refine normalize_eq_self ?_
  rintro n rfl
  exact hv

/-- **A value shown by a word**, which is its JSON text as well. -/
structure ShownBy (v : Value) (word : List Char) : Prop where
  /-- It is a word. -/
  isWord : IsWord word
  /-- It has a character. -/
  ne_nil : word ≠ []
  /-- It is what people see of the value. -/
  display_eq : ∀ rest, v.display rest = word ++ rest
  /-- It is the JSON text of the value. -/
  toText_eq : v.toJson.toText = String.ofList word

theorem shownBy_signedDigits {n : Int} {lower : Number.least ≤ n} {upper : n < Number.bound}
    (hjson : v.toJson = .number (.integer n lower upper))
    (hdisplay : ∀ rest, v.display rest = signedDigits n ++ rest) : v.ShownBy (signedDigits n) where
  isWord := isWord_signedDigits n
  ne_nil := signedDigits_ne_nil n
  display_eq := hdisplay
  toText_eq := by
    rw [hjson, Json.toText, Json.write, List.append_nil, Json.numberText]

/-- **An ordinary value** is a text, or it is shown by a word. -/
theorem IsOrdinary.text_or_shownBy (hv : v.IsOrdinary) :
    (∃ s, v = .text s) ∨ ∃ word, v.ShownBy word := by
  cases v with
  | null => exact Or.inr ⟨_, List.all_eq_true.1 rfl, List.cons_ne_nil _ _, fun _ => rfl, rfl⟩
  | bool b =>
    cases b <;>
      exact Or.inr ⟨_, List.all_eq_true.1 rfl, List.cons_ne_nil _ _, fun _ => rfl, rfl⟩
  | int n => exact Or.inr ⟨signedDigits n.toInt, shownBy_signedDigits rfl fun _ => rfl⟩
  | uint n => exact Or.inr ⟨signedDigits n.toNat, shownBy_signedDigits rfl fun _ => rfl⟩
  | float x => exact absurd hv id
  | text s => exact Or.inl ⟨s, rfl⟩

/-- A value shown by a word begins with a character of words. -/
theorem ShownBy.display_ne_cons {word : List Char} (h : v.ShownBy word) {c : Char}
    (hc : isWordChar c = false) (rest cs : List Char) : v.display rest ≠ c :: cs := by
  rw [h.display_eq]
  exact h.isWord.append_ne_cons h.ne_nil hc rest cs

/-- The text of a value begins like a word or like a quotation. -/
theorem IsOrdinary.display_ne_cons (hv : v.IsOrdinary) {c : Char} (hc : isWordChar c = false)
    (hquote : '"' ≠ c) (rest cs : List Char) : v.display rest ≠ c :: cs := by
  obtain ⟨s, rfl⟩ | ⟨word, hword⟩ := hv.text_or_shownBy
  · exact fun heq => hquote (List.cons.inj heq).1
  · exact hword.display_ne_cons hc rest cs

/-- **A word shows one ordinary value**: what it is the JSON text of. -/
theorem ShownBy.unique {word : List Char} (hv : v.IsOrdinary) (hw : w.IsOrdinary)
    (h : v.ShownBy word) (h' : w.ShownBy word) : v = w := by
  have hjson : v.toJson = w.toJson := by
    refine Json.toText_injective ?_
    rw [h.toText_eq, h'.toText_eq]
  have hdecoded : ofJson v.toJson = ofJson w.toJson := congrArg ofJson hjson
  rw [ofJson_toJson, ofJson_toJson, hv.normalize_eq, hw.normalize_eq] at hdecoded
  exact Except.ok.inj hdecoded

/-- **A text that begins with an ordinary value** begins with no other, and there
is one rest of it. -/
theorem display_inj (hv : v.IsOrdinary) (hw : w.IsOrdinary) {r s : List Char} (hr : EndsWord r)
    (hs : EndsWord s) (h : v.display r = w.display s) : v = w ∧ r = s := by
  obtain ⟨t, rfl⟩ | ⟨word, hword⟩ := hv.text_or_shownBy
  · obtain ⟨t', rfl⟩ | ⟨word', hword'⟩ := hw.text_or_shownBy
    · obtain ⟨rfl, hrest⟩ := quotation_inj h
      exact ⟨rfl, hrest⟩
    · exact absurd h.symm (hword'.display_ne_cons rfl _ _)
  · obtain ⟨t', rfl⟩ | ⟨word', hword'⟩ := hw.text_or_shownBy
    · exact absurd h (hword.display_ne_cons rfl _ _)
    · rw [hword.display_eq, hword'.display_eq] at h
      obtain ⟨rfl, hrest⟩ := hword.isWord.append_inj hword'.isWord hr hs h
      exact ⟨hword.unique hv hw hword', hrest⟩

end Value

end FilterTree
