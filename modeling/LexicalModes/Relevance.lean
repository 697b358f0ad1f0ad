/-!
Relevance: how strongly a text looks like a language.

Scores are whole numbers up to a fixed largest one, at which addition stops.
-/

namespace LexicalModes

/-- A score, at most `Relevance.largest`. -/
abbrev Relevance := Nat

namespace Relevance

/-- The largest score. -/
def largest : Nat := 0xFFFFFFFF

/-- The sum of two scores, or the largest score if the sum exceeds it. -/
def add (a b : Relevance) : Relevance := min (a + b) largest

end Relevance

end LexicalModes
