import LexicalModes.Compiled.KeywordTable
import LexicalModes.Pattern

/-!
Modes in the form that highlighting works with.

Patterns are ready to be searched for, keywords are tables, and the modes inside are given by their
index among the compiled modes. Highlighting only ever searches for a mode's terminators: the begins
of the modes inside, its own end with the ends it shares with the modes around it, and what is
illegal in it.
-/

namespace LexicalModes

/-- Index of a compiled mode; the root has index zero. -/
abbrev ModeIndex := Nat

/-- A pattern with the source it was made from, before the flags were put in front. -/
structure SourcedPattern where
  source : String
  pattern : Pattern

/-- A mode ready for highlighting. -/
structure CompiledMode where
  className : Option String
  begins : Option SourcedPattern
  ends : Option SourcedPattern
  illegal : Option SourcedPattern
  /-- What is looked up as a keyword. -/
  lexemes : Pattern
  /-- What may interrupt the text of the mode; absent if nothing may. -/
  terminators : Option Pattern
  /-- Sources of the mode's own end and of the ends it shares. -/
  terminatorEnd : String
  keywords : Option KeywordTable
  relevance : Relevance
  contains : List ModeIndex
  starts : Option ModeIndex
  subLanguage : Option SubLanguage
  /-- Whether the mode begins with keywords. -/
  beginsWithKeywords : Bool
  flags : ModeFlags

/-- A mode without boundaries, class, or modes inside. -/
def CompiledMode.blank : CompiledMode where
  className := none
  begins := none
  ends := none
  illegal := none
  lexemes := .ofEngine "" (.automaton (.ofRegular .empty 0))
  terminators := none
  terminatorEnd := ""
  keywords := none
  relevance := 1
  contains := []
  starts := none
  subLanguage := none
  beginsWithKeywords := false
  flags := {}

/-- The modes of a grammar, ready for highlighting. -/
structure CompiledGrammar where
  modes : Array CompiledMode
  caseInsensitive : Bool

namespace CompiledGrammar

/-- Number of modes. -/
def size (g : CompiledGrammar) : Nat := g.modes.size

/-- The mode with this index. An index that the grammar does not have stands for a mode in which
nothing happens. -/
def mode (g : CompiledGrammar) (index : ModeIndex) : CompiledMode :=
  (g.modes[index]?).getD .blank

/-- Index of the root. -/
def rootIndex : ModeIndex := 0

end CompiledGrammar

end LexicalModes
