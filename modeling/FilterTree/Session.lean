import FilterTree.Predicate.Display
import FilterTree.Predicate.Read

/-!
# Sessions

A **session** builds trees step by step, out of leaves, texts, documents and
the trees of earlier steps. Each step has a register of its own, numbered
from zero, which holds the tree that the step built, or nothing if the step
failed or only asked about a tree. A step that refers to a register holding
nothing fails, and the session goes on.

A session is what a caller of the library can do with it over time. So
what holds of every tree of every session holds of every tree there is:
that its doubles are finite, say, or that no leaf has an empty key if no
step used a policy that allows one.

Steps are traced. A tree that is described to the caller is put into its
canonical form for that, and so is one that is reloaded, and both are told
to the log; serializing a tree to text is not.
-/

namespace FilterTree

/-- **How a chain grows** by one link. -/
inductive Link where
  /-- The chain is negated. -/
  | negate
  /-- The chain is joined with the other tree to its right. -/
  | before (connective : Connective)
  /-- The chain is joined with the other tree to its left. -/
  | after (connective : Connective)
  /-- The chain is joined with itself. -/
  | double (connective : Connective)
deriving DecidableEq, Repr

/-- **A way to build a tree**; the numbers are registers. -/
inductive Construction where
  /-- A leaf that compares. -/
  | compare (policy : Policy) (relation : Relation) (key : String) (operand : Operand)
  /-- A leaf that looks up in a list. -/
  | member (policy : Policy) (key : String) (operands : List Operand)
  /-- Two trees joined. -/
  | pair (connective : Connective) (a b : Nat)
  /-- A tree joined with another one, if there is another. -/
  | pairOption (connective : Connective) (a : Nat) (b : Option Nat)
  /-- Any number of trees joined. -/
  | gather (connective : Connective) (of : List Nat)
  /-- A tree negated. -/
  | negate (a : Nat)
  /-- A child of a tree. -/
  | child (a index : Nat)
  /-- A tree with a number of links put around it, out of another tree if
  there is another. A register that is given must hold a tree, whether or
  not the links use it; one that is not given is missed by the first link
  that does. -/
  | chain (a : Nat) (b : Option Nat) (link : Link) (count : Nat)
  /-- A tree read from a text. -/
  | readText (text : String)
  /-- A tree decoded from a document. -/
  | decode (document : Json)
  /-- A tree decoded from the document of a text. -/
  | readDocument (text : String)
  /-- A tree decoded from the canonical form of another. -/
  | reload (a : Nat)
  /-- A tree read from the serialized text of another. -/
  | reloadText (a : Nat)
deriving Repr

/-- **A question about trees**; the numbers are registers. -/
inductive Question where
  /-- Whether two trees are equal. -/
  | same (a b : Nat)
  /-- What a tree consists of. -/
  | inspect (a : Nat)
  /-- The document that a tree is serialized to. -/
  | encode (a : Nat)
  /-- The canonical form of a tree. -/
  | canonical (a : Nat)
  /-- The depth and the number of nodes of a tree. -/
  | size (a : Nat)
  /-- The text of a tree for people. -/
  | display (a : Nat)
deriving DecidableEq, Repr

/-- **A step of a session.** -/
inductive Step where
  /-- Builds a tree, and describes it unless the step is quiet. -/
  | build (construction : Construction) (quiet : Bool)
  /-- Asks a question. -/
  | ask (question : Question)
  /-- Does nothing. -/
  | idle
deriving Repr

/-- **What keeps a step from its answer.** -/
inductive Obstacle where
  /-- A register holds nothing. -/
  | noRegister
  /-- A tree has no such child. -/
  | noChild
  /-- A leaf or a document is refused. -/
  | failed (failure : Failure)
  /-- A text cannot be read. -/
  | unreadable (fault : ReadFault)
deriving DecidableEq, Repr

namespace Link

/-- **A chain with one more link**, given the other tree if there is
one. -/
def grow (link : Link) (other : Option Predicate) (p : Predicate) : Except Obstacle Predicate :=
  match link, other with
  | .negate, _ => .ok (.negate p)
  | .before connective, some q => .ok (.pair connective p q)
  | .before _, none => .error .noRegister
  | .after connective, some q => .ok (.pair connective q p)
  | .after _, none => .error .noRegister
  | .double connective, _ => .ok (.pair connective p p)

/-- **A chain with a number of links more**, one after the other. A chain
that does not grow needs no other tree. -/
def extend (link : Link) (other : Option Predicate) : Nat → Predicate → Except Obstacle Predicate
  | 0, p => .ok p
  | count + 1, p => do
    let p ← link.grow other p
    link.extend other count p

end Link

/-- **What a step answers.** -/
inductive Reply where
  /-- Something is in the way. -/
  | blocked (obstacle : Obstacle)
  /-- A tree has been built. -/
  | built (tree : Predicate)
  /-- A tree has been built, and this is its canonical form. -/
  | described (tree : Predicate) (form : Json)
  /-- The verdict on a question. -/
  | verdict (holds : Bool)
  /-- A tree to look into. -/
  | inspected (tree : Predicate)
  /-- A document. -/
  | document (j : Json)
  /-- A depth and a number of nodes. -/
  | size (depth nodes : Nat)
  /-- A text. -/
  | text (s : String)
  /-- Nothing. -/
  | none

/-- **The registers of a session**, one for each step so far. -/
structure Session where
  /-- What the registers hold. -/
  registers : Array (Option Predicate) := #[]

namespace Session

/-- The tree in a register. -/
def tree (s : Session) (a : Nat) : Except Obstacle Predicate :=
  match s.registers[a]? with
  | some (some p) => .ok p
  | _ => .error .noRegister

/-- The trees in several registers. -/
def trees (s : Session) : List Nat → Except Obstacle (List Predicate)
  | [] => .ok []
  | a :: rest => do
    let p ← s.tree a
    let ps ← s.trees rest
    .ok (p :: ps)

/-- The tree in a register, if one is referred to. -/
def treeOption (s : Session) : Option Nat → Except Obstacle (Option Predicate)
  | some a => (s.tree a).map some
  | none => .ok none

/-- A build as part of a step. -/
def ofBuild (build : Build Predicate) : Traced (Except Obstacle Predicate) := do
  let outcome ← build.run
  pure (outcome.mapError .failed)

/-- A reading as part of a step. -/
def ofReading (reading : Traced (Except ReadFault Predicate)) :
    Traced (Except Obstacle Predicate) := do
  let outcome ← reading
  pure (outcome.mapError .unreadable)

/-- **What a construction builds** out of the registers. -/
def construct (s : Session) : Construction → Traced (Except Obstacle Predicate)
  | .compare policy relation key operand => ofBuild (policy.comparison relation key operand)
  | .member policy key operands => ofBuild (policy.membership key operands)
  | .pair connective a b =>
    pure do
      let p ← s.tree a
      let q ← s.tree b
      .ok (.pair connective p q)
  | .pairOption connective a b =>
    pure do
      let p ← s.tree a
      let q ← s.treeOption b
      .ok (.pairOption connective p q)
  | .gather connective of =>
    pure do
      let ps ← s.trees of
      .ok (.join connective ps)
  | .negate a =>
    pure do
      let p ← s.tree a
      .ok (.negate p)
  | .child a index =>
    pure do
      let p ← s.tree a
      match p.children[index]? with
      | some child => .ok child
      | none => .error .noChild
  | .chain a b link count =>
    pure do
      let p ← s.tree a
      let other ← s.treeOption b
      link.extend other count p
  | .readText text => ofReading (Predicate.ofText text)
  | .decode document => ofBuild (Predicate.ofCanonical document)
  | .readDocument text =>
    match Json.ofText? text with
    | some j => ofBuild (Predicate.ofCanonical j)
    | none => pure (.error (.unreadable .malformed))
  | .reload a =>
    match s.tree a with
    | .ok p => ofBuild (p.serialize >>= fun form => Predicate.ofCanonical form)
    | .error obstacle => pure (.error obstacle)
  | .reloadText a =>
    match s.tree a with
    | .ok p => ofReading (Predicate.ofText p.canonical.toText)
    | .error obstacle => pure (.error obstacle)

/-- The reply to a question about a tree. -/
def about (s : Session) (a : Nat) (reply : Predicate → Traced Reply) : Traced Reply :=
  match s.tree a with
  | .ok p => reply p
  | .error obstacle => pure (.blocked obstacle)

/-- **The answer to a question.** -/
def answer (s : Session) : Question → Traced Reply
  | .same a b => s.about a fun p => s.about b fun q => pure (.verdict (p.same q))
  | .inspect a => s.about a fun p => pure (.inspected p)
  | .encode a => s.about a fun p => pure (.document p.canonical)
  | .canonical a => s.about a fun p => do
    let form ← p.serialize
    pure (.document form)
  | .size a => s.about a fun p => pure (.size p.depth p.nodeCount)
  | .display a => s.about a fun p => pure (.text p.toText)

/-- The session with one more register. -/
def push (s : Session) (tree : Option Predicate) : Session := ⟨s.registers.push tree⟩

/-- **Doing a step**: its reply, and the session after it. -/
def step (s : Session) : Step → Traced (Reply × Session)
  | .build construction quiet => do
    match ← s.construct construction with
    | .ok p =>
      if quiet then pure (.built p, s.push p)
      else do
        let form ← p.serialize
        pure (.described p form, s.push p)
    | .error obstacle => pure (.blocked obstacle, s.push none)
  | .ask question => do
    let reply ← s.answer question
    pure (reply, s.push none)
  | .idle => pure (.none, s.push none)

/-- **Doing several steps**, one after the other. -/
def run (s : Session) : List Step → Traced Session
  | [] => pure s
  | first :: rest => do
    let (_, s) ← s.step first
    s.run rest

end Session

end FilterTree
