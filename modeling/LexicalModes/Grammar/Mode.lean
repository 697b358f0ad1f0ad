import LexicalModes.OrderedMap
import LexicalModes.Relevance

/-!
Modes as an author declares them.

A mode is a region of a language: how it begins and ends, how it is classed, which words in it are
keywords, and which modes may occur inside. Everything is optional. Modes refer to each other by
their number in a grammar, so that a mode can be shared or contain one of its own containers.
-/

namespace LexicalModes

/-- Number of a mode in its grammar; the root is number zero. -/
abbrev ModeId := Nat

/-- An entry in the list of modes that a mode contains. -/
inductive Contained
  /-- The containing mode itself. -/
  | this
  /-- The mode with this number. -/
  | mode (id : ModeId)
  deriving DecidableEq, Repr

/-- Keyword lists. Words are separated by white space, and `|` and a number after a word give its
weight. -/
inductive Keywords
  /-- One list of words, all of the class `keyword`. -/
  | plain (words : String)
  /-- A list of words for each class. -/
  | classes (lists : OrderedMap String)
  deriving DecidableEq, Repr

/-- The class of the words in a plain list. -/
def Keywords.plainClass : String := "keyword"

/-- The language that the content of a mode is highlighted with. -/
inductive SubLanguage
  /-- Always this one. -/
  | fixed (name : String)
  /-- Whichever of these scores best; any registered one if the list is empty. -/
  | auto (names : List String)
  deriving DecidableEq, Repr

/-- Yes or no questions about a mode. -/
structure ModeFlags where
  /-- The mode's boundaries do not interrupt the text around it. -/
  skip : Bool := false
  /-- What began the mode stays outside it. -/
  excludeBegin : Bool := false
  /-- What ended the mode stays outside it. -/
  excludeEnd : Bool := false
  /-- What began the mode is read again inside it. -/
  returnBegin : Bool := false
  /-- What ended the mode is read again outside it. -/
  returnEnd : Bool := false
  /-- The mode also ends where the mode around it does. -/
  endsWithParent : Bool := false
  /-- The mode around it ends where this one does. -/
  endsParent : Bool := false
  /-- The mode ends with the very text it began with. -/
  endSameAsBegin : Bool := false
  deriving DecidableEq, Repr

/-- Flags that are set on either side. -/
def ModeFlags.or (a b : ModeFlags) : ModeFlags where
  skip := a.skip || b.skip
  excludeBegin := a.excludeBegin || b.excludeBegin
  excludeEnd := a.excludeEnd || b.excludeEnd
  returnBegin := a.returnBegin || b.returnBegin
  returnEnd := a.returnEnd || b.returnEnd
  endsWithParent := a.endsWithParent || b.endsWithParent
  endsParent := a.endsParent || b.endsParent
  endSameAsBegin := a.endSameAsBegin || b.endSameAsBegin

/-- What is declared of a mode, other than its relations to other modes. -/
structure Traits where
  className : Option String := none
  beginPattern : Option String := none
  beginKeywords : Option String := none
  endPattern : Option String := none
  illegal : Option String := none
  lexemes : Option String := none
  keywords : Option Keywords := none
  relevance : Option Relevance := none
  subLanguage : Option SubLanguage := none
  flags : ModeFlags := {}
  deriving DecidableEq, Repr

/-- Traits laid over others: what is declared above wins, and flags set on either side stay set. -/
def Traits.overlay (base above : Traits) : Traits where
  className := above.className.or base.className
  beginPattern := above.beginPattern.or base.beginPattern
  beginKeywords := above.beginKeywords.or base.beginKeywords
  endPattern := above.endPattern.or base.endPattern
  illegal := above.illegal.or base.illegal
  lexemes := above.lexemes.or base.lexemes
  keywords := above.keywords.or base.keywords
  relevance := above.relevance.or base.relevance
  subLanguage := above.subLanguage.or base.subLanguage
  flags := base.flags.or above.flags

/-- A declared mode. -/
structure Mode extends Traits where
  contains : List Contained := []
  /-- Modes that stand for this one, each laid over it. -/
  variants : List Mode := []
  /-- The mode that follows when this one ends. -/
  starts : Option ModeId := none
  deriving Repr

namespace Mode

/-- A copy of the mode with a variant laid over it. A variant's list of contained modes wins unless
it is empty. The copy has no variants of its own. -/
def overlay (base variant : Mode) : Mode where
  toTraits := base.toTraits.overlay variant.toTraits
  contains := if variant.contains.isEmpty then base.contains else variant.contains
  variants := []
  starts := variant.starts.or base.starts

/-- Declare the words of a class beside those already declared. A plain list becomes the list of its
class. -/
def declareKeywords (mode : Mode) (className words : String) : Mode :=
  let lists := match mode.keywords with
    | some (.classes lists) => lists
    | some (.plain plain) => OrderedMap.empty.insert Keywords.plainClass plain
    | none => .empty
  { mode with keywords := some (.classes (lists.insert className words)) }

end Mode

end LexicalModes
