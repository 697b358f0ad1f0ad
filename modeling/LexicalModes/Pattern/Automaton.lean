import LexicalModes.Pattern.Regular
import LexicalModes.Pattern.Text

/-!
Matching of regular pieces by an automaton.

The automaton has a state for every character set, condition, choice and group end of the piece. All
ways of matching are followed at once, in order of preference, so one pass over the text is enough
however the piece is written. Of the matches that start first, the preferred one is found: the one
that a search trying the branches in order would reach first, with the groups it would remember.
-/

namespace LexicalModes.Pattern

open Unicode

/-- A state of the automaton, by what it does before going on to other states. -/
inductive State
  /-- The piece has matched. -/
  | accept
  /-- Consume one character of the set. -/
  | consume (set : CharSet) (next : Nat)
  /-- Go on if the condition holds. -/
  | require (condition : Assertion) (next : Nat)
  /-- Note the position in a slot. -/
  | mark (slot : Nat) (next : Nat)
  /-- Go on to each of these states, earlier ones preferred. -/
  | fork (branches : List Nat)

/-- An automaton. -/
structure Automaton where
  /-- States by number. -/
  states : Array State
  /-- The state to start in. -/
  start : Nat
  /-- Number of slots that positions are noted in. -/
  slots : Nat
  /-- Most states that can be met on the way to states that consume a character. -/
  reach : Nat

namespace Automaton

/-- States built so far. -/
abbrev Builder := Array State

/-- Add a state and return its number. -/
def add (b : Builder) (s : State) : Builder × Nat := (b.push s, b.size)

/-- A choice between going round again and going on. -/
def choice (greedy : Bool) (again onward : Nat) : State :=
  .fork (if greedy then [again, onward] else [onward, again])

/-- Pass a target through a construction `n` times, the last copy first. -/
def repeatBuild (build : Nat → Builder → Builder × Nat) : Nat → Nat → Builder → Builder × Nat
  | 0, next, b => (b, next)
  | n + 1, next, b =>
    let (b, start) := build next b
    repeatBuild build n start b

/-- Up to `n` more copies, each with a way out to `exit`. -/
def optionalBuild (build : Nat → Builder → Builder × Nat) (greedy : Bool) (exit : Nat) :
    Nat → Nat → Builder → Builder × Nat
  | 0, next, b => (b, next)
  | n + 1, next, b =>
    let (b, start) := build next b
    let (b, fork) := add b (choice greedy start exit)
    optionalBuild build greedy exit n fork b

/-- Repeat a construction between the bounds. An endless repeat of a piece that may match the empty
text goes round at least once before it may leave, which keeps the preferences in order. -/
def iterateBuild (build : Nat → Builder → Builder × Nat) (mayBeEmpty : Bool)
    (least : Nat) (most : Option Nat) (greedy : Bool) (next : Nat) (b : Builder) : Builder × Nat :=
  match most with
  | some most =>
    let (b, start) := optionalBuild build greedy next (most - least) next b
    repeatBuild build least start b
  | none =>
    let (b, loop) := add b .accept
    let (b, start) := build loop b
    let b := b.setIfInBounds loop (choice greedy start next)
    if least = 0 then
      if mayBeEmpty then add b (choice greedy start next) else (b, loop)
    else repeatBuild build (least - 1) start b

mutual

/-- Add the states of a piece that goes on to `next`, and return where it starts. Groups up to the
given number have their ends noted. -/
def build (groups : Nat) : Regular → Nat → Builder → Builder × Nat
  | .empty, next, b => (b, next)
  | .chars set, next, b => add b (.consume set next)
  | .assertion condition, next, b => add b (.require condition next)
  | .seq parts, next, b => buildParts groups parts next b
  | .alt branches, next, b =>
    let (b, starts) := buildBranches groups branches next b
    add b (.fork starts)
  | .group index body, next, b =>
    if index ≤ groups then
      let (b, stop) := add b (.mark (2 * index - 1) next)
      let (b, start) := build groups body stop b
      add b (.mark (2 * index - 2) start)
    else build groups body next b
  | .iterate body least most greedy, next, b =>
    iterateBuild (build groups body) body.mayBeEmpty least most greedy next b

/-- Add parts one after another. -/
def buildParts (groups : Nat) : List Regular → Nat → Builder → Builder × Nat
  | [], next, b => (b, next)
  | p :: rest, next, b =>
    let (b, start) := buildParts groups rest next b
    build groups p start b

/-- Add branches that all go on to `next`. -/
def buildBranches (groups : Nat) : List Regular → Nat → Builder → Builder × List Nat
  | [], _, b => (b, [])
  | p :: rest, next, b =>
    let (b, start) := build groups p next b
    let (b, starts) := buildBranches groups rest next b
    (b, start :: starts)

end

/-- Most states that can be met when each is entered once, from any of those that lead to it. -/
def reachOf (states : Array State) : Nat :=
  states.foldl (fun n s => n + match s with
    | .fork branches => branches.length + 1
    | _ => 2) 1

/-- The automaton of a piece that remembers so many of its groups: slot `2 * n - 2` holds where
group `n` starts, and the next slot where it ends. -/
def ofRegular (piece : Regular) (groups : Nat) : Automaton :=
  let (states, start) := build groups piece 0 #[.accept]
  ⟨states, start, 2 * groups, reachOf states⟩

/-- A way of matching that is being followed: the state it is in, where its match starts, and the
positions it has noted. -/
structure Thread where
  state : Nat
  start : Nat
  slots : Array (Option Nat)

/-- The threads at one position, the most preferred last, and the set of their states as bits. -/
structure Frontier where
  threads : List Thread
  seen : Nat

/-- No thread. -/
def Frontier.empty : Frontier := ⟨[], 0⟩

/-- Follow states that consume nothing, from those given with the positions noted on the way to
them, in order of preference. Each state is entered once: whatever comes to it later is less
preferred. -/
def follow (a : Automaton) (text : Text) (i start : Nat) :
    Nat → List (Nat × Array (Option Nat)) → Frontier → Frontier
  | 0, _, f => f
  | _, [], f => f
  | fuel + 1, (s, slots) :: rest, f =>
    if f.seen.testBit s then follow a text i start fuel rest f
    else
      let seen := f.seen ||| (1 <<< s)
      match a.states[s]? with
      | some (.fork branches) =>
        follow a text i start fuel (branches.map (·, slots) ++ rest) { f with seen := seen }
      | some (.require condition next) =>
        follow a text i start fuel (if condition.holds text i then (next, slots) :: rest else rest)
          { f with seen := seen }
      | some (.mark slot next) =>
        follow a text i start fuel ((next, slots.setIfInBounds slot (some i)) :: rest)
          { f with seen := seen }
      | _ => follow a text i start fuel rest ⟨⟨s, start, slots⟩ :: f.threads, seen⟩

/-- Let every thread consume the character, most preferred first. A thread that has matched ends
those less preferred than it. Returns the match found, if any, and the threads after the
character. -/
def advance (a : Automaton) (text : Text) (i : Nat) :
    List Thread → Frontier → Option Thread × Frontier
  | [], f => (none, f)
  | t :: rest, f =>
    match a.states[t.state]? with
    | some .accept => (some t, f)
    | some (.consume set next) =>
      match text[i]? with
      | some c =>
        if set.contains c then
          advance a text i rest (follow a text (i + 1) t.start a.reach [(next, t.slots)] f)
        else advance a text i rest f
      | none => advance a text i rest f
    | _ => advance a text i rest f

/-- A match of an automaton: its first and last position, and the positions noted on the way. -/
structure Match where
  start : Nat
  stop : Nat
  slots : Array (Option Nat)

/-- Search from position `i` on, with the threads that have come this far and the best match so
far. A new thread starts at every position until something has matched, unless the match has to
start where the search does. -/
def searchFrom (a : Automaton) (anchored : Bool) (text : Text) :
    Nat → Nat → Frontier → Option Match → Option Match
  | 0, _, _, best => best
  | steps + 1, i, f, best =>
    let f := if best.isNone && !anchored then
        follow a text i i a.reach [(a.start, Array.replicate a.slots none)] f
      else f
    if f.threads.isEmpty && (anchored || best.isSome) then best
    else
      let (found, next) := advance a text i f.threads.reverse .empty
      let best := match found with
        | some t => some ⟨t.start, i, t.slots⟩
        | none => best
      searchFrom a anchored text steps (i + 1) next best

/-- The preferred match that starts first, at `i` or later. -/
def find? (a : Automaton) (text : Text) (i : Nat) : Option Match :=
  searchFrom a false text (text.size + 1 - i) i .empty none

/-- The preferred match that starts at `i`. -/
def matchAt? (a : Automaton) (text : Text) (i : Nat) : Option Match :=
  let first := follow a text i i a.reach [(a.start, Array.replicate a.slots none)] .empty
  searchFrom a true text (text.size + 1 - i) i first none

end Automaton

end LexicalModes.Pattern
