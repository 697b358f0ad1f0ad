import LexicalModes.Pattern.Node
import LexicalModes.Unicode.CharSet

/-!
Regular pieces of patterns: those that one pass over the text can match.
-/

namespace LexicalModes.Pattern

open Unicode

/-- A piece without look-around, references and atomic groups. Groups are numbered from one in the
order they are opened in. -/
inductive Regular
  /-- The empty text. -/
  | empty
  /-- One character of the set. -/
  | chars (set : CharSet)
  /-- A condition on the position. -/
  | assertion (condition : Assertion)
  /-- The parts one after another. -/
  | seq (parts : List Regular)
  /-- One of the branches, earlier ones preferred. -/
  | alt (branches : List Regular)
  /-- The body, remembered as the numbered group. -/
  | group (index : Nat) (body : Regular)
  /-- The body repeated between `least` and `most` times, more preferred if greedy. -/
  | iterate (body : Regular) (least : Nat) (most : Option Nat) (greedy : Bool)
  deriving Repr

namespace Regular

mutual

/-- Whether the piece can match the empty text. -/
def mayBeEmpty : Regular → Bool
  | .empty | .assertion _ => true
  | .chars _ => false
  | .seq parts => allMayBeEmpty parts
  | .alt branches => someMayBeEmpty branches
  | .group _ body => body.mayBeEmpty
  | .iterate body least _ _ => least == 0 || body.mayBeEmpty

/-- Whether every part can match the empty text. -/
def allMayBeEmpty : List Regular → Bool
  | [] => true
  | p :: rest => p.mayBeEmpty && allMayBeEmpty rest

/-- Whether some branch can match the empty text. -/
def someMayBeEmpty : List Regular → Bool
  | [] => false
  | p :: rest => p.mayBeEmpty || someMayBeEmpty rest

end

mutual

/-- Whether the piece can match nothing but the empty text. -/
def onlyEmpty : Regular → Bool
  | .empty | .assertion _ => true
  | .chars _ => false
  | .seq parts | .alt parts => allOnlyEmpty parts
  | .group _ body => body.onlyEmpty
  | .iterate body _ most _ => most == some 0 || body.onlyEmpty

/-- Whether every part can match nothing but the empty text. -/
def allOnlyEmpty : List Regular → Bool
  | [] => true
  | p :: rest => p.onlyEmpty && allOnlyEmpty rest

end

/-- The body repeated, without rounds that could change nothing: one round of a body that consumes
nothing is as good as many. -/
def repeated (body : Regular) (least : Nat) (most : Option Nat) (greedy : Bool) : Regular :=
  let (least, most) :=
    if body.onlyEmpty then (min least 1, some (min (most.getD 1) 1)) else (least, most)
  if most == some 0 then .empty
  else if least == 1 && most == some 1 then body
  else .iterate body least most greedy

/-- The parts one after another, without a wrapper around none or one. -/
def ofParts : List Regular → Regular
  | [] => .empty
  | [p] => p
  | parts => .seq parts

/-- The branches as a choice, without a wrapper around a single one. -/
def ofBranches : List Regular → Regular
  | [p] => p
  | branches => .alt branches

end Regular

end LexicalModes.Pattern
