/-!
The parts a pattern is built from.

A `Node` says what a piece of a pattern matches. Some pieces need a search that can go back on its
choices (look-around, references, atomic groups); the others are *regular* and are matched by an
automaton in one pass. `Node.shape` tells them apart, and measures how many characters a piece
matches at least and whether it always matches that many.
-/

namespace LexicalModes.Pattern

/-- A condition on a position, which consumes nothing. -/
inductive Assertion
  | textStart
  | textEnd
  | lineStart
  | lineEnd
  | wordBoundary
  | notWordBoundary
  | wordStart
  | wordEnd
  deriving DecidableEq, Repr

/-- Where a look-around looks from the current position. -/
inductive Direction
  | ahead
  | behind
  deriving DecidableEq, Repr

/-- A piece of a pattern. -/
inductive Node
  /-- The empty text. -/
  | empty
  /-- Any character, a line feed only if `newline` is set. -/
  | any (newline : Bool)
  /-- This character, or if `caseless` any of its case variants. -/
  | literal (c : Char) (caseless : Bool)
  /-- One character of the class written so in the plain notation. -/
  | classText (text : List Char) (caseless : Bool)
  /-- A condition on the position. -/
  | assertion (condition : Assertion)
  /-- The parts one after another. -/
  | seq (parts : List Node)
  /-- One of the branches, earlier ones preferred. -/
  | alt (branches : List Node)
  /-- The body, remembered as the numbered group. -/
  | group (index : Nat) (body : Node)
  /-- The body repeated between `least` and `most` times, more preferred if greedy. -/
  | iterate (body : Node) (least : Nat) (most : Option Nat) (greedy : Bool)
  /-- The body does, or does not, match next to the position. -/
  | look (direction : Direction) (positive : Bool) (body : Node)
  /-- The text that the numbered group last matched. -/
  | backref (index : Nat)
  /-- The body, never matched in a second way once it has matched. -/
  | atomic (body : Node)
  /-- The match is taken to start here. -/
  | keep
  /-- The position where the search started. -/
  | origin
  /-- The numbered group has taken part. -/
  | isSet (index : Nat)
  /-- The second part if the first matches, else the third. -/
  | cond (test yes no : Node)
  deriving Repr

/-- What a piece needs of the matcher, and how long its matches are. -/
structure Shape where
  /-- Fewest characters of a match. -/
  least : Nat
  /-- Every match has exactly the fewest characters. -/
  fixed : Bool
  /-- No choice has to be revised once the piece has matched. -/
  regular : Bool
  deriving DecidableEq, Repr

namespace Shape

/-- A piece that is regular and always consumes this many characters. -/
def exactly (n : Nat) : Shape := ⟨n, true, true⟩

/-- One piece after another. -/
def append (a b : Shape) : Shape :=
  ⟨a.least + b.least, a.fixed && b.fixed, a.regular && b.regular⟩

/-- One piece or another. -/
def either (a b : Shape) : Shape :=
  ⟨min a.least b.least, a.fixed && b.fixed && a.least == b.least, a.regular && b.regular⟩

/-- Regular, with matches of one length only. -/
def simple (s : Shape) : Bool := s.regular && s.fixed

end Shape

namespace Assertion

/-- Whether the condition looks at the kind of the characters next to the position. -/
def isWordTest : Assertion → Bool
  | .wordBoundary | .notWordBoundary | .wordStart | .wordEnd => true
  | _ => false

end Assertion

namespace Node

mutual

/-- Shape of a piece in a pattern where the listed groups are referred to. A group that is referred
to and has matches of several lengths may have to be matched in another way later. -/
def shape (referenced : List Nat) : Node → Shape
  | .empty => .exactly 0
  | .any _ | .literal _ _ | .classText _ _ => .exactly 1
  | .assertion condition => ⟨0, true, !condition.isWordTest⟩
  | .seq parts => shapeOfParts referenced parts
  | .alt branches => shapeOfBranches referenced branches
  | .group index body =>
    let s := body.shape referenced
    { s with regular := s.regular && (s.fixed || !referenced.contains index) }
  | .iterate body least most _ =>
    let s := body.shape referenced
    ⟨s.least * least, s.fixed && most == some least, s.regular⟩
  | .look _ _ _ => ⟨0, true, false⟩
  | .backref _ => ⟨0, false, false⟩
  | .atomic body => { body.shape referenced with regular := false }
  | .keep | .origin | .isSet _ => ⟨0, true, false⟩
  | .cond test yes no =>
    let t := test.shape referenced
    let y := yes.shape referenced
    let n := no.shape referenced
    ⟨t.least + min y.least n.least,
      t.fixed && y.fixed && n.fixed && t.least + y.least == n.least, false⟩

/-- Shape of parts one after another. -/
def shapeOfParts (referenced : List Nat) : List Node → Shape
  | [] => .exactly 0
  | p :: rest => (p.shape referenced).append (shapeOfParts referenced rest)

/-- Shape of a choice among branches. -/
def shapeOfBranches (referenced : List Nat) : List Node → Shape
  | [] => .exactly 0
  | [p] => p.shape referenced
  | p :: rest => (p.shape referenced).either (shapeOfBranches referenced rest)

end

mutual

/-- Number of groups opened once the piece has been passed, if so many were opened before it. There
is none if the piece refers to a group that is not open by then. -/
def opened? : Node → Nat → Option Nat
  | .empty, n | .any _, n | .literal _ _, n | .classText _ _, n | .assertion _, n => some n
  | .keep, n | .origin, n => some n
  | .backref index, n | .isSet index, n => if index ≤ n then some n else none
  | .seq parts, n | .alt parts, n => openedByParts? parts n
  | .group _ body, n => body.opened? (n + 1)
  | .iterate body _ _ _, n | .look _ _ body, n | .atomic body, n => body.opened? n
  | .cond test yes no, n => do no.opened? (← yes.opened? (← test.opened? n))

/-- Number of groups opened once all the parts have been passed. -/
def openedByParts? : List Node → Nat → Option Nat
  | [], n => some n
  | p :: rest, n => do openedByParts? rest (← p.opened? n)

end

mutual

/-- Numbers of the groups in the piece, in the order they are opened in. -/
def groups : Node → List Nat
  | .seq parts | .alt parts => groupsOfParts parts
  | .group index body => index :: body.groups
  | .iterate body _ _ _ | .look _ _ body | .atomic body => body.groups
  | .cond test yes no => test.groups ++ yes.groups ++ no.groups
  | _ => []

/-- Numbers of the groups in the parts, in the order they are opened in. -/
def groupsOfParts : List Node → List Nat
  | [] => []
  | p :: rest => p.groups ++ groupsOfParts rest

end

/-- Whether the piece may be repeated: the empty text, conditions and look-around may not. -/
def isRepeatable : Node → Bool
  | .look .. | .empty | .assertion _ => false
  | _ => true

/-- Whether the piece is the empty text. -/
def isEmpty : Node → Bool
  | .empty => true
  | _ => false

/-- The parts one after another, without a wrapper around none or one. -/
def ofParts : List Node → Node
  | [] => .empty
  | [p] => p
  | parts => .seq parts

/-- The branches as a choice, without a wrapper around a single one. -/
def ofBranches : List Node → Node
  | [p] => p
  | branches => .alt branches

end Node

end LexicalModes.Pattern
