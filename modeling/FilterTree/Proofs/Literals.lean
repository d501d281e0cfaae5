import FilterTree.Json.Reading
import FilterTree.Json.Writer
import FilterTree.Proofs.Numerals

/-!
# Literals in a text

A reader takes the text of a string or a number for one literal. A written
string is read character by character to the **pieces** it was written in
(`piecesOf`), and these spell the string. A text that is a number literal is
read to that literal, either on its own or up to the delimiter after it.
-/

namespace FilterTree

/-! ## Strings -/

/-- **The piece that a character is written in**: a unit for the control
characters that no letter stands for. -/
def Piece.ofChar (c : Char) : Piece :=
  if c.toNat < 0x20 ∧ c ∉ ['\x08', '\t', '\n', '\x0c', '\r'] then .unit c.toNat else .char c

/-- **The pieces that a string is written in.** -/
def piecesOf (s : String) : List Piece := s.toList.map Piece.ofChar

/-- A unit below the surrogates spells the character of its number. -/
theorem charsOf?_unit_of_lt {u : Nat} (h : u < 0xD800) (rest : List Piece) :
    charsOf? (.unit u :: rest) = (charsOf? rest).map (Char.ofNat u :: ·) := by
  have hlow : isLowSurrogate u = false := by
    simp only [isLowSurrogate, Bool.and_eq_false_iff, decide_eq_false_iff_not]
    omega
  have hhigh : isHighSurrogate u = false := by
    simp only [isHighSurrogate, Bool.and_eq_false_iff, decide_eq_false_iff_not]
    omega
  rw [charsOf?.eq_def]
  simp only [hlow, hhigh, Bool.false_eq_true, if_false]

@[simp] theorem charsOf?_map_ofChar (cs : List Char) :
    charsOf? (cs.map Piece.ofChar) = some cs := by
  induction cs with
  | nil => rfl
  | cons c cs ih =>
    rw [List.map_cons, Piece.ofChar]
    split
    · rename_i hunit
      rw [charsOf?_unit_of_lt (by omega), ih, Option.map_some, Char.ofNat_toNat]
    · rw [charsOf?, ih, Option.map_some]

/-- **The pieces of a string spell it.** -/
@[simp] theorem textOf?_piecesOf (s : String) : textOf? (piecesOf s) = some s := by
  rw [textOf?, piecesOf, charsOf?_map_ofChar, Option.map_some, String.ofList_toList]

@[simp] theorem Quoted.hexValue?_digitChar {d : Nat} (h : d < 16) :
    hexValue? (digitChar d) = some d := by
  have all : ∀ n : Fin 16, hexValue? (digitChar n.val) = some n.val := by decide
  exact all ⟨d, h⟩

namespace Scan

/-- **A state that reads a literal** takes every character that neither ends
nor breaks the literal as the literal does. -/
def ReadsLiteral (state : Quoted → Scan) : Prop :=
  ∀ literal c, (∀ pieces, literal.step c ≠ .closed pieces) → literal.step c ≠ .broken →
    (state literal).step c = state (literal.step c)

theorem readsLiteral_inText (context : List Frame) :
    ReadsLiteral fun literal => inText literal context := by
  intro literal c hclosed hbroken
  rw [step]
  cases hstep : literal.step c with
  | closed pieces => exact absurd hstep (hclosed pieces)
  | broken => exact absurd hstep hbroken
  | inside pieces => rfl
  | escape pieces => rfl
  | hex pieces count unit => rfl

theorem readsLiteral_inName (entries : List (List Piece × Outline)) (context : List Frame) :
    ReadsLiteral fun literal => inName literal entries context := by
  intro literal c hclosed hbroken
  rw [step]
  cases hstep : literal.step c with
  | closed pieces => exact absurd hstep (hclosed pieces)
  | broken => exact absurd hstep hbroken
  | inside pieces => rfl
  | escape pieces => rfl
  | hex pieces count unit => rfl

variable {state : Quoted → Scan}

/-- One character of a literal is taken. -/
theorem ReadsLiteral.run_cons (hstate : ReadsLiteral state) {literal after : Quoted} {c : Char}
    (h : literal.step c = after) (hclosed : ∀ pieces, after ≠ .closed pieces)
    (hbroken : after ≠ .broken) (rest : List Char) :
    (state literal).run (c :: rest) = (state after).run rest := by
  subst h
  rw [Scan.run_cons, hstate literal c hclosed hbroken]

/-- An escape by a letter is read as the character that it stands for. -/
theorem ReadsLiteral.run_escaped (hstate : ReadsLiteral state) {c e : Char}
    (hu : c ≠ 'u') (h : Quoted.escaped? c = some e) (pieces : List Piece) (rest : List Char) :
    (state (.inside pieces)).run ('\\' :: c :: rest)
      = (state (.inside (.char e :: pieces))).run rest := by
  have hback : (Quoted.inside pieces).step '\\' = .escape pieces := rfl
  have hletter : (Quoted.escape pieces).step c = .inside (.char e :: pieces) := by
    rw [Quoted.step, if_neg hu, h]
  rw [hstate.run_cons hback nofun nofun, hstate.run_cons hletter nofun nofun]

/-- An escape by a number below `0x20` is read as that unit. -/
theorem ReadsLiteral.run_unit (hstate : ReadsLiteral state) {n : Nat} (h : n < 0x20)
    (pieces : List Piece) (rest : List Char) :
    (state (.inside pieces)).run
        ('\\' :: 'u' :: '0' :: '0' :: digitChar (n / 16) :: digitChar (n % 16) :: rest)
      = (state (.inside (.unit n :: pieces))).run rest := by
  have hback : (Quoted.inside pieces).step '\\' = .escape pieces := rfl
  have hmark : (Quoted.escape pieces).step 'u' = .hex pieces 0 0 := rfl
  have hfirst : (Quoted.hex pieces 0 0).step '0' = .hex pieces 1 0 := rfl
  have hsecond : (Quoted.hex pieces 1 0).step '0' = .hex pieces 2 0 := rfl
  have hthird : (Quoted.hex pieces 2 0).step (digitChar (n / 16)) = .hex pieces 3 (n / 16) := by
    rw [Quoted.step, Quoted.hexValue?_digitChar (by omega)]
    simp
  have hfourth : (Quoted.hex pieces 3 (n / 16)).step (digitChar (n % 16))
      = .inside (.unit n :: pieces) := by
    rw [Quoted.step, Quoted.hexValue?_digitChar (by omega)]
    simp [Nat.div_add_mod]
  rw [hstate.run_cons hback nofun nofun, hstate.run_cons hmark nofun nofun,
    hstate.run_cons hfirst nofun nofun, hstate.run_cons hsecond nofun nofun,
    hstate.run_cons hthird nofun nofun, hstate.run_cons hfourth nofun nofun]

/-- **A written character** is read as its piece. -/
theorem ReadsLiteral.run_writeChar (hstate : ReadsLiteral state) (c : Char)
    (pieces : List Piece) (rest : List Char) :
    (state (.inside pieces)).run (Json.writeChar c rest)
      = (state (.inside (Piece.ofChar c :: pieces))).run rest := by
  unfold Json.writeChar
  -- the characters that a letter stands for come first
  iterate 7
    split
    · subst_vars
      exact hstate.run_escaped (by decide) rfl pieces rest
  split
  · rename_i hlow
    have hpiece : Piece.ofChar c = .unit c.toNat := by
      rw [Piece.ofChar, if_pos ⟨hlow, by simp [*]⟩]
    rw [hpiece]
    exact hstate.run_unit hlow pieces rest
  · rename_i hquote hback _ _ _ _ _ hhigh
    have hpiece : Piece.ofChar c = .char c := by
      rw [Piece.ofChar, if_neg fun h => hhigh h.1]
    have hstep : (Quoted.inside pieces).step c = .inside (.char c :: pieces) := by
      rw [Quoted.step, if_neg hquote, if_neg hback, if_neg hhigh]
    rw [hpiece, hstate.run_cons hstep nofun nofun]

/-- Written characters are read as their pieces. -/
theorem ReadsLiteral.run_writeChars (hstate : ReadsLiteral state) (cs : List Char)
    (pieces : List Piece) (rest : List Char) :
    (state (.inside pieces)).run (cs.foldr Json.writeChar rest)
      = (state (.inside ((cs.map Piece.ofChar).reverse ++ pieces))).run rest := by
  induction cs generalizing pieces with
  | nil => rfl
  | cons c cs ih =>
    rw [List.foldr_cons, hstate.run_writeChar, ih, List.map_cons, List.reverse_cons,
      List.append_assoc, List.singleton_append]

/-- **A written string** is read to its end, where its pieces are passed
on. -/
theorem ReadsLiteral.run_closed (hstate : ReadsLiteral state) (after : List Piece → Scan)
    (hafter : ∀ pieces, (state (.inside pieces)).step '"' = after pieces.reverse) (s : String)
    (rest : List Char) :
    (state (.inside [])).run (s.toList.foldr Json.writeChar ('"' :: rest))
      = (after (piecesOf s)).run rest := by
  rw [hstate.run_writeChars, List.append_nil, Scan.run_cons, hafter, List.reverse_reverse,
    piecesOf]

/-- A written string is a value where one is awaited. -/
theorem run_writeText_awaiting (s : String) (context : List Frame) (rest : List Char) :
    (awaiting context).run (Json.writeText s rest)
      = (complete (.text (piecesOf s)) context).run rest :=
  (readsLiteral_inText context).run_closed (fun pieces => complete (.text pieces) context)
    (fun _ => rfl) s rest

theorem run_writeText_firstName (s : String) (context : List Frame) (rest : List Char) :
    (firstName context).run (Json.writeText s rest)
      = (afterName (piecesOf s) [] context).run rest :=
  (readsLiteral_inName [] context).run_closed (fun pieces => afterName pieces [] context)
    (fun _ => rfl) s rest

theorem run_writeText_nextName (s : String) (entries : List (List Piece × Outline))
    (context : List Frame) (rest : List Char) :
    (nextName entries context).run (Json.writeText s rest)
      = (afterName (piecesOf s) entries context).run rest :=
  (readsLiteral_inName entries context).run_closed (fun pieces => afterName pieces entries context)
    (fun _ => rfl) s rest

end Scan

/-! ## Numbers -/

namespace Numeral.Draft

/-- A literal starts with the minus sign or a digit. -/
theorem eq_or_isDigit_of_start? {c : Char} {draft : Draft} (h : start? c = some draft) :
    c = '-' ∨ c.isDigit = true := by
  unfold start? at h
  split at h
  · rename_i hsign
    exact Or.inl hsign
  · obtain ⟨d, hd, -⟩ := Option.map_eq_some_iff.1 h
    unfold digit? at hd
    split at hd
    · rename_i hdigit
      exact Or.inr hdigit
    · cases hd

theorem isBlank_of_start? {c : Char} {draft : Draft} (h : start? c = some draft) :
    isBlank c = false := by
  cases hc : isBlank c with
  | false => rfl
  | true =>
    have hstart := eq_or_isDigit_of_start? h
    simp only [isBlank, Bool.or_eq_true, decide_eq_true_eq] at hc
    rcases hc with ((rfl | rfl) | rfl) | rfl <;> exact absurd hstart (by decide)

end Numeral.Draft

/-- **A delimiter**: what follows an item or a value of an entry in a written
text. -/
def IsDelimiter (c : Char) : Prop := c = ',' ∨ c = ']' ∨ c = '\x7d'

/-- No literal goes on with a delimiter. -/
theorem Numeral.Draft.step?_of_isDelimiter {c : Char} (h : IsDelimiter c) (draft : Draft) :
    draft.step? c = none := by
  obtain ⟨stage, negative, whole, fraction, lowering, size⟩ := draft
  rcases h with rfl | rfl | rfl <;> cases stage <;> rfl

namespace Scan

/-- Where a value is awaited, the first character of a literal starts one. -/
theorem step_awaiting_of_start? {c : Char} {draft : Numeral.Draft}
    (h : Numeral.Draft.start? c = some draft) (context : List Frame) :
    (awaiting context).step c = inNumeral draft context := by
  show (awaiting context).between c = _
  rw [between, Numeral.Draft.isBlank_of_start? h]
  show begin c context = _
  unfold begin
  split
  -- none of the characters that start anything else starts a literal
  case h_7 => rw [h]
  all_goals exact absurd h nofun

/-- The characters that a literal goes on with are taken. -/
theorem run_inNumeral {draft after : Numeral.Draft} {cs : List Char}
    (h : draft.run? cs = some after) (context : List Frame) :
    (inNumeral draft context).run cs = inNumeral after context := by
  induction cs generalizing draft with
  | nil =>
    obtain rfl : draft = after := Option.some.inj h
    rfl
  | cons c cs ih =>
    rw [Numeral.Draft.run?_cons] at h
    obtain ⟨next, hnext, h⟩ := Option.bind_eq_some_iff.1 h
    have hstep : (inNumeral draft context).step c = inNumeral next context := by
      rw [step, hnext]
    rw [run_cons, hstep, ih h]

/-- A literal is taken where a value is awaited. -/
theorem run_awaiting_of_ofChars? {cs : List Char} {draft : Numeral.Draft}
    (h : Numeral.Draft.ofChars? cs = some draft) (context : List Frame) :
    (awaiting context).run cs = inNumeral draft context := by
  cases cs with
  | nil => exact absurd h nofun
  | cons c cs =>
    obtain ⟨first, hfirst, h⟩ := Option.bind_eq_some_iff.1 h
    rw [run_cons, step_awaiting_of_start? hfirst, run_inNumeral h]

/-- Where a value has been completed, characters stand between literals. -/
theorem step_complete (value : Outline) (context : List Frame) (c : Char) :
    (complete value context).step c = (complete value context).between c := by
  cases context with
  | nil => rfl
  | cons frame context => cases frame <;> rfl

variable {cs : List Char} {n : Numeral}

/-- **A literal on its own** is read to itself. -/
theorem reading_numeral (h : Numeral.ofChars? cs = some n) :
    ((awaiting []).run cs).reading = ⟨.numeral n, false⟩ := by
  obtain ⟨draft, hdraft, hend⟩ := Option.bind_eq_some_iff.1 h
  rw [run_awaiting_of_ofChars? hdraft]
  simp only [reading, outline, hend, enclose]

/-- **A literal before a delimiter** is complete there. -/
theorem run_numeral (h : Numeral.ofChars? cs = some n) (context : List Frame) {c : Char}
    (hc : IsDelimiter c) (rest : List Char) :
    (awaiting context).run (cs ++ c :: rest) = (complete (.numeral n) context).run (c :: rest) := by
  obtain ⟨draft, hdraft, hend⟩ := Option.bind_eq_some_iff.1 h
  have hstep : (inNumeral draft context).step c = (complete (.numeral n) context).step c := by
    rw [step, draft.step?_of_isDelimiter hc, hend, step_complete]
  rw [run_append, run_awaiting_of_ofChars? hdraft, run_cons, hstep, ← run_cons]

end Scan

end FilterTree
