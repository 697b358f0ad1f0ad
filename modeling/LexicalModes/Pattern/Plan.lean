import LexicalModes.Pattern.Automaton
import LexicalModes.Pattern.Regular.Notation
import LexicalModes.Pattern.Regular.Reader
import LexicalModes.Pattern.Regular.Weight

/-!
How a pattern that is not regular is matched.

A `Plan` follows the pattern's tree, with its regular stretches handed to automata by way of the
plain notation. A stretch may be handed over when nothing that comes after it could ask for another
of its matches: all of it where the choice is final (`strict = false`), and otherwise only pieces
with matches of one length.
-/

namespace LexicalModes.Pattern

open Unicode

/-- Steps of a search that can go back on its choices. -/
inductive Plan
  /-- The preferred match of an automaton, and no other. Its groups are remembered as those with
  consecutive numbers from `firstGroup` on; those that take no part in it are forgotten. -/
  | regular (automaton : Automaton) (firstGroup : Nat)
  | chars (set : CharSet)
  | assertion (condition : Assertion)
  | seq (parts : List Plan)
  | alt (branches : List Plan)
  | group (index : Nat) (body : Plan)
  /-- Repeat the body. If the body may consume nothing, the numbered guard notes where rounds start,
  to refuse one that starts where the last one did. -/
  | loop (body : Plan) (least : Nat) (most : Option Nat) (greedy : Bool) (guard : Option Nat)
  /-- Go back so many characters, try the body there, and return. -/
  | look (back : Nat) (positive : Bool) (body : Plan)
  | backref (index : Nat)
  | atomic (body : Plan)
  | keep
  | origin
  | isSet (index : Nat)
  | cond (test yes no : Plan)

/-- Making a plan, which may fail, with a count of the guards given out. -/
abbrev Planner := StateT Nat Option

/-- Read a regular piece from its text, if it is well formed and its automaton not too large. -/
def Regular.ofPlain? (text : List Char) : Option Regular := do
  let piece ← Regular.parse? text
  if piece.fits then return piece else none

namespace Plan

/-- A plan for pieces that take one step each, if all do. -/
def steps? : Regular → Option Plan
  | .empty => some (.seq [])
  | .chars set => some (.chars set)
  | .assertion condition => some (.assertion condition)
  | .seq parts => (stepsOfParts? parts).map .seq
  | _ => none
where
  /-- A plan for each of the parts. -/
  stepsOfParts? : List Regular → Option (List Plan)
    | [] => some []
    | .chars set :: rest => (stepsOfParts? rest).map (.chars set :: ·)
    | .assertion condition :: rest => (stepsOfParts? rest).map (.assertion condition :: ·)
    | _ => none

/-- The plan for a regular stretch. -/
def ofRegular? (parts : List Node) : Option Plan := do
  let piece ← Regular.ofPlain? (Node.plainParts .branch parts)
  let groups := Node.groupsOfParts parts
  match steps? piece with
  | some steps => return steps
  | none => return .regular (.ofRegular piece groups.length) (groups.headD 0)

/-- Length of the stretch at the front whose pieces all satisfy the test. -/
def stretch (test : Shape → Bool) (shapes : List Shape) : Nat := (shapes.takeWhile test).length

/-- Give out a guard, if one is needed. -/
def newGuard (needed : Bool) : Planner (Option Nat) := do
  if needed then
    let n ← get
    set (n + 1)
    return some n
  else return none

mutual

/-- The plan of a piece in a pattern where the listed groups are referred to. There is none for a
look-behind of varying length or a regular stretch that the plain notation refuses. -/
def ofNode (referenced : List Nat) (strict : Bool) : Node → Planner Plan
  | .empty => return .seq []
  | .any newline => ofRegular? [.any newline]
  | .literal c caseless => ofRegular? [.literal c caseless]
  | .classText text caseless => ofRegular? [.classText text caseless]
  | .assertion condition => return .assertion condition
  | .seq parts =>
    let shapes := parts.map (Node.shape referenced)
    if !strict && shapes.all (·.regular) then ofRegular? [.seq parts]
    else do
      let front := stretch Shape.simple shapes
      let back := stretch (if strict then Shape.simple else Shape.regular)
        (shapes.drop front).reverse
      let middle := parts.length - front - back
      let first ← if front = 0 then pure (.seq []) else ofRegular? (parts.take front)
      let plans ← ofParts referenced front middle parts
      let last ← if back = 0 then pure (.seq []) else ofRegular? (parts.drop (front + middle))
      return .seq (first :: plans ++ [last])
  | .alt branches =>
    if !strict && branches.all (fun b => (b.shape referenced).regular) then
      ofRegular? [.alt branches]
    else return .alt (← ofEach referenced strict branches)
  | .group index body =>
    if !strict && (Node.shape referenced (.group index body)).regular then
      ofRegular? [.group index body]
    else return .group index (← ofNode referenced strict body)
  | .iterate body least most greedy =>
    let s := body.shape referenced
    if !strict && s.regular then ofRegular? [.iterate body least most greedy]
    else do
      let single := least == 0 && most == some 1
      let guard ← newGuard (most.isNone && s.least == 0)
      let plan ← ofNode referenced (strict || (!single && !s.regular)) body
      return .loop plan least most greedy guard
  | .look .ahead positive body => return .look 0 positive (← ofNode referenced false body)
  | .look .behind positive body =>
    let s := body.shape referenced
    if s.fixed then return .look s.least positive (← ofNode referenced false body)
    else
      match body with
      | .alt branches => do
        let plans ← ofBehind referenced positive branches
        return if positive then .alt plans else .seq plans
      | _ => failure
  | .backref index => return .backref index
  | .atomic body => return .atomic (← ofNode referenced false body)
  | .keep => return .keep
  | .origin => return .origin
  | .isSet index => return .isSet index
  | .cond test yes no => do
    let test ← ofNode referenced strict test
    let yes ← ofNode referenced strict yes
    let no ← ofNode referenced strict no
    return .cond test yes no

/-- Plans of the parts after the first `skip`, at most `count` of them. -/
def ofParts (referenced : List Nat) : Nat → Nat → List Node → Planner (List Plan)
  | _, _, [] => return []
  | _, 0, _ => return []
  | 0, count + 1, p :: rest => do
    let plan ← ofNode referenced true p
    let plans ← ofParts referenced 0 count rest
    return plan :: plans
  | skip + 1, count, _ :: rest => ofParts referenced skip count rest

/-- The plan of each branch. -/
def ofEach (referenced : List Nat) (strict : Bool) : List Node → Planner (List Plan)
  | [] => return []
  | p :: rest => do
    let plan ← ofNode referenced strict p
    let plans ← ofEach referenced strict rest
    return plan :: plans

/-- A look-behind for each branch by itself, so that each may have a length of its own. -/
def ofBehind (referenced : List Nat) (positive : Bool) : List Node → Planner (List Plan)
  | [] => return []
  | p :: rest => do
    let s := p.shape referenced
    if s.fixed then
      let plan ← ofNode referenced false p
      let plans ← ofBehind referenced positive rest
      return .look s.least positive plan :: plans
    else failure

end

end Plan

end LexicalModes.Pattern
