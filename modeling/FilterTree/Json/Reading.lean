import FilterTree.Json.Outline

/-!
# Reading JSON text

The outline of a text is made in one pass, one character at a time. The
state of the pass (`Scan`) is what the next character may continue, within
a **context** of the arrays and objects that are open, innermost first. A
character that continues nothing tears the outline, and so does the end of
the text; either way `Scan.outline` closes nothing and gives what is there.

The pass is a left fold, so reading a text and then another is reading the
two together, and it never looks ahead. A number literal is the one thing
whose end shows only in the character after it. That character is then
taken a second time, as one that follows a value.

After the value of the text only blanks may come. Anything else is
remembered as **trailing** (`Reading`), for that fault counts only once the
value has been accepted.
-/

namespace FilterTree

/-- The blanks that may stand between the parts of a text. -/
def isBlank (c : Char) : Bool :=
  c = ' ' || c = '\t' || c = '\n' || c = '\r'

/-- **What waits for a value**: an array or object that is open around
it. -/
inductive Frame where
  /-- An array, with its items so far, the last one first. -/
  | item (before : List Outline)
  /-- An object, with its entries so far, the last one first, and the name
  whose value is awaited. -/
  | entry (before : List (List Piece × Outline)) (name : List Piece)

/-- **The state of a reading.** -/
inductive Scan where
  /-- A value must come. -/
  | awaiting (context : List Frame)
  /-- A string has been opened. -/
  | inText (literal : Quoted) (context : List Frame)
  /-- A number has begun. -/
  | inNumeral (draft : Numeral.Draft) (context : List Frame)
  /-- A word that stands for a value has begun; these characters of it are
  left. -/
  | inWord (next : Char) (left : List Char) (value : Outline) (context : List Frame)
  /-- An array has been opened: an item or its end must come. -/
  | firstItem (context : List Frame)
  /-- An item is complete: a comma or the end of the array must come. -/
  | afterItem (items : List Outline) (context : List Frame)
  /-- An object has been opened: a name or its end must come. -/
  | firstName (context : List Frame)
  /-- An entry and a comma are complete: a name must come. -/
  | nextName (entries : List (List Piece × Outline)) (context : List Frame)
  /-- The string of a name has been opened. -/
  | inName (literal : Quoted) (entries : List (List Piece × Outline)) (context : List Frame)
  /-- A name is complete: a colon must come. -/
  | afterName (name : List Piece) (entries : List (List Piece × Outline)) (context : List Frame)
  /-- An entry is complete: a comma or the end of the object must come. -/
  | afterEntry (entries : List (List Piece × Outline)) (context : List Frame)
  /-- The value of the text is complete: only blanks may come. -/
  | finished (value : Outline)
  /-- Something other than blanks came after the value. -/
  | trailing (value : Outline)
  /-- The text is torn. -/
  | torn (value : Outline)

namespace Scan

/-- A value that the text leaves here, in the arrays and objects that it
leaves open. -/
def enclose (value : Outline) : List Frame → Outline
  | [] => value
  | .item before :: context => enclose (.array (value :: before).reverse false) context
  | .entry before name :: context =>
    enclose (.object ((name, value) :: before).reverse false) context

/-- **The outline so far**: what a text says that ends here. -/
def outline : Scan → Outline
  | .awaiting context => enclose .torn context
  | .inText _ context => enclose .torn context
  | .inNumeral draft context =>
    match draft.numeral? with
    | some n => enclose (.numeral n) context
    | none => enclose .torn context
  | .inWord _ _ _ context => enclose .torn context
  | .firstItem context => enclose (.array [] false) context
  | .afterItem items context => enclose (.array items.reverse false) context
  | .firstName context => enclose (.object [] false) context
  | .nextName entries context => enclose (.object entries.reverse false) context
  | .inName _ entries context => enclose (.object entries.reverse false) context
  | .afterName name entries context => enclose .torn (.entry entries name :: context)
  | .afterEntry entries context => enclose (.object entries.reverse false) context
  | .finished value => value
  | .trailing value => value
  | .torn value => value

/-- The state after a complete value. -/
def complete (value : Outline) : List Frame → Scan
  | [] => .finished value
  | .item before :: context => .afterItem (value :: before) context
  | .entry before name :: context => .afterEntry ((name, value) :: before) context

/-- The state after the first character of a value. -/
def begin (c : Char) (context : List Frame) : Scan :=
  match c with
  | '"' => .inText (.inside []) context
  | '[' => .firstItem context
  | '\x7b' => .firstName context
  | 'n' => .inWord 'u' ['l', 'l'] .null context
  | 't' => .inWord 'r' ['u', 'e'] (.bool true) context
  | 'f' => .inWord 'a' ['l', 's', 'e'] (.bool false) context
  | c =>
    match Numeral.Draft.start? c with
    | some draft => .inNumeral draft context
    | none => .torn (enclose .torn context)

/-- **A character between literals.** -/
def between (s : Scan) (c : Char) : Scan :=
  if isBlank c then s
  else match s with
    | .awaiting context => begin c context
    | .firstItem context =>
      if c = ']' then complete (.array [] true) context else begin c (.item [] :: context)
    | .afterItem items context =>
      if c = ',' then .awaiting (.item items :: context)
      else if c = ']' then complete (.array items.reverse true) context
      else .torn s.outline
    | .firstName context =>
      if c = '"' then .inName (.inside []) [] context
      else if c = '\x7d' then complete (.object [] true) context
      else .torn s.outline
    | .nextName entries context =>
      if c = '"' then .inName (.inside []) entries context else .torn s.outline
    | .afterName name entries context =>
      if c = ':' then .awaiting (.entry entries name :: context) else .torn s.outline
    | .afterEntry entries context =>
      if c = ',' then .nextName entries context
      else if c = '\x7d' then complete (.object entries.reverse true) context
      else .torn s.outline
    | .finished value => .trailing value
    | s => s

/-- **One more character** of the text. -/
def step (s : Scan) (c : Char) : Scan :=
  match s with
  | .inText literal context =>
    match literal.step c with
    | .closed pieces => complete (.text pieces) context
    | .broken => .torn s.outline
    | literal => .inText literal context
  | .inName literal entries context =>
    match literal.step c with
    | .closed pieces => .afterName pieces entries context
    | .broken => .torn s.outline
    | literal => .inName literal entries context
  | .inNumeral draft context =>
    match draft.step? c with
    | some draft => .inNumeral draft context
    | none =>
      match draft.numeral? with
      | some n => (complete (.numeral n) context).between c
      | none => .torn s.outline
  | .inWord next left value context =>
    if c = next then
      match left with
      | [] => complete value context
      | next :: left => .inWord next left value context
    else .torn s.outline
  | .trailing value => .trailing value
  | .torn value => .torn value
  | s => s.between c

/-- The state after a text, from the state before it. -/
def run (s : Scan) (cs : List Char) : Scan := cs.foldl step s

@[simp] theorem run_nil (s : Scan) : s.run [] = s := rfl

@[simp] theorem run_cons (s : Scan) (c : Char) (cs : List Char) :
    s.run (c :: cs) = (s.step c).run cs := rfl

/-- **Reading is compositional**: a text and then another are read like the
two together. -/
@[simp] theorem run_append (s : Scan) (cs ds : List Char) : s.run (cs ++ ds) = (s.run cs).run ds :=
  List.foldl_append

/-- Nothing that follows mends a tear. -/
@[simp] theorem run_torn (value : Outline) (cs : List Char) :
    (torn value).run cs = .torn value := by
  induction cs with
  | nil => rfl
  | cons c cs ih => exact ih

/-- Nothing that follows takes back what trails a value. -/
@[simp] theorem run_trailing (value : Outline) (cs : List Char) :
    (trailing value).run cs = .trailing value := by
  induction cs with
  | nil => rfl
  | cons c cs ih => exact ih

end Scan

/-- **What has been read of a text.** -/
structure Reading where
  /-- The outline of its value. -/
  outline : Outline
  /-- Whether something other than blanks follows the value. -/
  trailing : Bool

/-- The reading of a text that ends in a given state. -/
def Scan.reading (s : Scan) : Reading where
  outline := s.outline
  trailing := match s with
    | .trailing _ => true
    | _ => false

/-- **Reading a text.** -/
def Reading.ofText (text : String) : Reading :=
  (Scan.run (.awaiting []) text.toList).reading

/-- How many arrays and objects a text may have open at once. -/
def maxLevels : Nat := 127

/-- The document a reading amounts to, if it is one. -/
def Reading.toJson? (r : Reading) : Option Json :=
  if r.trailing then none else r.outline.toJson? maxLevels

/-- **The document of a text** in its normal form, if the text is one. -/
def Json.ofText? (text : String) : Option Json :=
  (Reading.ofText text).toJson?.map Json.normalize

end FilterTree
