import LexicalModes.Pattern.Plan

/-!
Carrying out a plan.

The search keeps a list of tasks still to be done and, for every choice not yet final, the tasks to
take up if the search comes back to it. Coming back to a choice counts against a limit, and so do
choices left open, so that a pattern of excessive cost ends with a `MatchError`. Making choices
final is cutting the list of choices back to a height it had before. The heights to cut to are kept
in a list of their own, and a cut always takes the latest: a conditional whose test fails leaves its
height there, for whatever is cut next.
-/

namespace LexicalModes.Pattern

/-- Reasons a match attempt is given up. -/
inductive MatchError
  /-- Too many choices were revised. -/
  | backtrackLimit
  /-- Too many choices were left open. -/
  | choiceLimit
  deriving DecidableEq, Repr

/-- How many times one match attempt may come back to a choice. -/
def backtrackLimit : Nat := 1000000

/-- How many choices one match attempt may leave open. -/
def choiceLimit : Nat := 1000000

/-- How many tasks one match attempt may carry out; ample for any that stays within the limits on
choices. -/
def taskLimit : Nat := 0x1000000000000

/-- Something the search still has to do. -/
inductive Task
  /-- Carry out a plan. -/
  | run (plan : Plan)
  /-- Try the plan here, and at every later position if that fails. -/
  | seek (plan : Plan)
  /-- Move past a character and seek the plan from there. -/
  | seekNext (plan : Plan)
  /-- Note the end of a group. -/
  | close (index : Nat)
  /-- Decide on another round, so many being over. -/
  | again (body : Plan) (least : Nat) (most : Option Nat) (greedy : Bool) (guard : Option Nat)
      (done : Nat)
  /-- Make all choices above the latest height final. -/
  | cut
  /-- Give up all choices above the height and fail. -/
  | refuse (height : Nat)
  /-- Go back so many characters. -/
  | goBack (count : Nat)
  /-- Continue from the position. -/
  | moveTo (i : Nat)

/-- A way to go on: what to do, from where, and with what noted. Slot `2 * n` holds the start of
group `n` and the next slot its end; group zero is the whole match. Guards have slots of their own,
and heights to cut to are listed with the latest first. -/
structure Branch where
  tasks : List Task
  i : Nat
  slots : Array (Option Nat)
  guards : Array (Option Nat)
  heights : List Nat

/-- A search under way: the way being tried, the other ways left, how many there are, and how often
the search came back to one. -/
structure Search where
  current : Branch
  choices : List Branch
  height : Nat
  revised : Nat

/-- What a step of the search leads to. -/
inductive Progress
  | searching (next : Search)
  | found (start stop : Nat)
  | failed
  | givenUp (reason : MatchError)

namespace Search

/-- Come back to the latest choice. -/
def fail (s : Search) : Progress :=
  match s.choices with
  | [] => .failed
  | b :: rest =>
    if s.revised ≥ backtrackLimit then .givenUp .backtrackLimit
    else .searching ⟨b, rest, s.height - 1, s.revised + 1⟩

/-- Go on with these tasks from the position. -/
def go (s : Search) (tasks : List Task) (i : Nat) : Progress :=
  .searching { s with current := { s.current with tasks := tasks, i := i } }

/-- Go on with the first tasks, and keep the second for later. -/
def choose (s : Search) (first second : List Task) : Progress :=
  if s.height ≥ choiceLimit then .givenUp .choiceLimit
  else
    .searching
      { s with
        current := { s.current with tasks := first }
        choices := { s.current with tasks := second } :: s.choices
        height := s.height + 1 }

/-- Drop the choices above the height. -/
def cutTo (s : Search) (height : Nat) : Search :=
  { s with choices := s.choices.drop (s.height - height), height := min s.height height }

/-- Note a position in a slot. -/
def setSlot (s : Search) (slot i : Nat) : Search :=
  { s with current := { s.current with slots := s.current.slots.setIfInBounds slot (some i) } }

/-- The position in a slot, if one was noted. -/
def slot? (s : Search) (slot : Nat) : Option Nat := (s.current.slots[slot]?).join

/-- Note where a guarded round starts. -/
def setGuard (s : Search) (guard : Option Nat) : Search :=
  match guard with
  | none => s
  | some n =>
    { s with
      current :=
        { s.current with guards := s.current.guards.setIfInBounds n (some s.current.i) } }

/-- Whether the guard notes that a round started at this position. -/
def isStalled (s : Search) (guard : Option Nat) : Bool :=
  match guard with
  | none => false
  | some n => (s.current.guards[n]?).join == some s.current.i

/-- Add the current height to those to cut to. -/
def pushHeight (s : Search) : Search :=
  { s with current := { s.current with heights := s.height :: s.current.heights } }

/-- Remember the groups of an automaton's match, which are numbered from `firstGroup` on. -/
def setGroups (s : Search) (firstGroup : Nat) (noted : Array (Option Nat)) : Search :=
  let slots := (List.range noted.size).foldl
    (fun slots k => slots.setIfInBounds (2 * firstGroup + k) (noted[k]?).join) s.current.slots
  { s with current := { s.current with slots := slots } }

/-- Continue after the text of a group if it comes next. -/
def matchGroup (s : Search) (text : Text) (index : Nat) (rest : List Task) : Progress :=
  let i := s.current.i
  match s.slot? (2 * index), s.slot? (2 * index + 1) with
  | some start, some stop =>
    let wanted := text.extract start stop
    if text.extract i (i + wanted.size) == wanted then s.go rest (i + wanted.size) else s.fail
  | _, _ => s.fail

/-- Decide whether a loop goes round again. -/
def round (s : Search) (body : Plan) (least : Nat) (most : Option Nat) (greedy : Bool)
    (guard : Option Nat) (done : Nat) (rest : List Task) : Progress :=
  let i := s.current.i
  if done > 0 && s.isStalled guard then s.fail
  else if most == some done then s.go rest i
  else
    let more := .run body :: .again body least most greedy guard (done + 1) :: rest
    if done < least then s.go more i
    else if greedy then (s.setGuard guard).choose more rest
    else (s.setGuard guard).choose rest more

/-- Carry out a plan before the remaining tasks. -/
def perform (s : Search) (text : Text) (origin : Nat) (plan : Plan) (rest : List Task) :
    Progress :=
  let i := s.current.i
  match plan with
  | .regular automaton firstGroup =>
    match automaton.matchAt? text i with
    | some found => (s.setGroups firstGroup found.slots).go rest found.stop
    | none => s.fail
  | .chars set =>
    match text[i]? with
    | some c => if set.contains c then s.go rest (i + 1) else s.fail
    | none => s.fail
  | .assertion condition => if condition.holds text i then s.go rest i else s.fail
  | .seq parts => s.go (parts.map .run ++ rest) i
  | .alt branches =>
    match branches with
    | [] => s.fail
    | [b] => s.go (.run b :: rest) i
    | b :: others => s.choose (.run b :: rest) (.run (.alt others) :: rest)
  | .group index body => (s.setSlot (2 * index) i).go (.run body :: .close index :: rest) i
  | .loop body least most greedy guard => s.round body least most greedy guard 0 rest
  | .look back true body => s.go (.goBack back :: .run body :: .moveTo i :: rest) i
  | .look back false body => s.choose [.goBack back, .run body, .refuse s.height] rest
  | .backref index => s.matchGroup text index rest
  | .atomic body => s.pushHeight.go (.run body :: .cut :: rest) i
  | .keep => (s.setSlot 0 i).go rest i
  | .origin => if i ≤ origin then s.go rest i else s.fail
  | .isSet index => if (s.slot? (2 * index)).isSome then s.go rest i else s.fail
  | .cond test yes no =>
    s.pushHeight.choose (.run test :: .cut :: .run yes :: rest) (.run no :: rest)

/-- Do the next task. A match whose start was moved past its end is empty. -/
def step (s : Search) (text : Text) (origin : Nat) : Progress :=
  let i := s.current.i
  match s.current.tasks with
  | [] => .found (min ((s.slot? 0).getD i) i) i
  | .run plan :: rest => s.perform text origin plan rest
  | .seek plan :: rest => (s.setSlot 0 i).choose (.run plan :: rest) (.seekNext plan :: rest)
  | .seekNext plan :: rest =>
    if i < text.size then s.go (.seek plan :: rest) (i + 1) else s.fail
  | .close index :: rest => (s.setSlot (2 * index + 1) i).go rest i
  | .again body least most greedy guard done :: rest =>
    s.round body least most greedy guard done rest
  | .cut :: rest =>
    match s.current.heights with
    | [] => s.go rest i
    | height :: heights =>
      let s := { s with current := { s.current with heights := heights } }
      (s.cutTo height).go rest i
  | .refuse height :: _ => (s.cutTo height).fail
  | .goBack count :: rest => if count ≤ i then s.go rest (i - count) else s.fail
  | .moveTo j :: rest => s.go rest j

/-- Search until something is found, at most so many tasks. -/
def run (text : Text) (origin : Nat) : Nat → Search → Except MatchError (Option (Nat × Nat))
  | 0, _ => .error .backtrackLimit
  | fuel + 1, s =>
    match s.step text origin with
    | .searching next => run text origin fuel next
    | .found start stop => .ok (some (start, stop))
    | .failed => .ok none
    | .givenUp reason => .error reason

end Search

/-- First and last position of the preferred match that starts first, at `i` or later, in a pattern
with so many groups and guards. -/
def Plan.find? (plan : Plan) (groups guards : Nat) (text : Text) (i : Nat) :
    Except MatchError (Option (Nat × Nat)) :=
  Search.run text i taskLimit
    { current :=
        { tasks := [.seek plan]
          i := i
          slots := Array.replicate (2 * groups + 2) none
          guards := Array.replicate guards none
          heights := [] }
      choices := []
      height := 0
      revised := 0 }

end LexicalModes.Pattern
