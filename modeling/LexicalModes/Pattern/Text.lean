import LexicalModes.Pattern.Node
import LexicalModes.Unicode.Known

/-!
Text as patterns see it: an array of characters, with positions between them.

Position `i` stands before the `i`-th character, and the last position is the number of characters.
A `Span` is a pair of positions that is known to lie in order inside the text.
-/

namespace LexicalModes.Pattern

/-- Characters by position. -/
abbrev Text := Array Char

/-- The characters of a string by position. -/
def Text.ofString (s : String) : Text := s.toList.toArray

/-- The part of the text between two positions. -/
def Text.slice (text : Text) (start stop : Nat) : String :=
  String.ofList (text.extract start stop).toList

/-- A part of a text of the given size that starts at `low` or later. -/
structure Span (low size : Nat) where
  start : Nat
  stop : Nat
  low_le_start : low ≤ start
  start_le_stop : start ≤ stop
  stop_le_size : stop ≤ size

/-- The span between two positions, if they are in order and inside the text. -/
def Span.ofBounds? (low size start stop : Nat) : Option (Span low size) :=
  if h : low ≤ start ∧ start ≤ stop ∧ stop ≤ size then some ⟨start, stop, h.1, h.2.1, h.2.2⟩
  else none

/-- Whether the character at the position is a word character; there is none past the end. -/
def Text.isWordAt (text : Text) (i : Nat) : Bool :=
  match text[i]? with
  | some c => Unicode.Known.isWord c
  | none => false

/-- Whether the character before the position is a word character; there is none before the
start. -/
def Text.isWordBefore (text : Text) (i : Nat) : Bool := i != 0 && text.isWordAt (i - 1)

/-- Whether the condition holds at the position. Lines end at line feeds. -/
def Assertion.holds (text : Text) (i : Nat) : Assertion → Bool
  | .textStart => i == 0
  | .textEnd => i == text.size
  | .lineStart => i == 0 || text[i - 1]? == some '\n'
  | .lineEnd => i == text.size || text[i]? == some '\n'
  | .wordBoundary => text.isWordBefore i != text.isWordAt i
  | .notWordBoundary => text.isWordBefore i == text.isWordAt i
  | .wordStart => !text.isWordBefore i && text.isWordAt i
  | .wordEnd => text.isWordBefore i && !text.isWordAt i

end LexicalModes.Pattern
