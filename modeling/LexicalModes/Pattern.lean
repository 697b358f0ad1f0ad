import LexicalModes.Pattern.Landing

/-!
Patterns, and the search for their matches in a text.

A `Pattern` is a text with a search, and all that is known of the search is what its type says: what
it finds lies in order inside the text, and does not end before the position it was searched from.
`Pattern.ofEngine` makes such patterns of the engine of this library.
-/

namespace LexicalModes

open Pattern

/-- A pattern ready to be searched for. -/
structure Pattern where
  /-- What the pattern was read from. -/
  text : String
  /-- What a search in a text from position `i` finds, no part of which is before `low`. -/
  search : (content : Text) → (low i : Nat) → Except MatchError (Option (Span low content.size))
  /-- No match ends before the position that it was searched from. -/
  le_stop : ∀ {content : Text} {low i : Nat} {span : Span low content.size},
    search content low i = .ok (some span) → i ≤ span.stop

namespace Pattern

/-- The pattern that was read from the text and is searched for by the engine. -/
def ofEngine (text : String) (engine : Engine) : Pattern :=
  ⟨text, engine.search, Engine.le_stop_of_search⟩

/-- Make a pattern of its text, if the text is one. -/
def ofText? (text : String) : Option Pattern := (Engine.ofText? text).map (ofEngine text)

/-- The match that a search from position `i` finds, which does not start before `low`. From a
position after the end of the text nothing is searched for. -/
def findAfter? (p : Pattern) (text : Text) (low i : Nat) :
    Except MatchError (Option (Span low text.size)) :=
  if text.size < i then .ok none else p.search text low i

theorem le_stop_of_findAfter? {p : Pattern} {text : Text} {low i : Nat} {span : Span low text.size}
    (h : p.findAfter? text low i = .ok (some span)) : i ≤ span.stop := by
  rw [findAfter?] at h
  split at h
  · cases h
  · exact p.le_stop h

/-- The match that a search from position `i` finds, which does not start before that. -/
def find? (p : Pattern) (text : Text) (i : Nat) :
    Except MatchError (Option (Span i text.size)) :=
  p.findAfter? text i i

/-- The text of the match at the very start of a lexeme, if the first match starts there. -/
def matchStart? (p : Pattern) (lexeme : String) : Except MatchError (Option String) := do
  let text := Text.ofString lexeme
  match ← p.find? text 0 with
  | some span => return if span.start = 0 then some (text.slice 0 span.stop) else none
  | none => return none

end Pattern

end LexicalModes
