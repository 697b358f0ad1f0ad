import LexicalModes.Pattern.Reader
import LexicalModes.Pattern.Search

/-!
The engine that finds the matches of a pattern.

A pattern is read from its text once. It is matched by an automaton if it is regular as a whole, and
by a search that can go back on its choices if not; both find the match that starts first and, of
those, the preferred one.
-/

namespace LexicalModes.Pattern

/-- How the matches of a pattern are found. -/
inductive Engine
  | automaton (a : Automaton)
  | planned (plan : Plan) (groups guards : Nat)

namespace Engine

/-- The engine of a pattern with this text, if the text is one of a pattern. -/
def ofText? (text : String) : Option Engine := do
  let parsed ← parse? text
  if (parsed.node.shape parsed.referenced).regular then
    let piece ← Regular.ofPlain? (parsed.node.plain .whole)
    return .automaton (.ofRegular piece 0)
  else
    let (plan, guards) ← (Plan.ofNode parsed.referenced true parsed.node).run 0
    return .planned plan parsed.groups guards

/-- The preferred match of an attempt at position `i` or, failing that, at the first position after
it where an attempt succeeds. What comes before that position is still seen by conditions and
look-behind, and a start noted there may lie before it, but not before `low`. -/
def search (engine : Engine) (text : Text) (low i : Nat) :
    Except MatchError (Option (Span low text.size)) :=
  match engine with
  | .automaton a =>
    .ok ((a.find? text i).bind fun found => Span.ofBounds? low text.size found.start found.stop)
  | .planned plan groups guards =>
    (plan.find? groups guards text i).map fun result =>
      result.bind fun (start, stop) => Span.ofBounds? low text.size start stop

end Engine

end LexicalModes.Pattern
