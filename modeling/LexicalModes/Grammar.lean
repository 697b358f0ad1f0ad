import LexicalModes.Grammar.Mode

/-!
Grammars: numbered modes, the first of which is the root.
-/

namespace LexicalModes

/-- Modes by number. There is always a root. -/
structure Grammar where
  modes : Array Mode
  size_pos : 0 < modes.size

namespace Grammar

/-- The grammar with only a root. -/
def ofRoot (root : Mode) : Grammar := ⟨#[root], by simp⟩

/-- Number of the root. -/
def rootId : ModeId := 0

/-- Number of modes. -/
def size (g : Grammar) : Nat := g.modes.size

/-- Add a mode, and return its number. -/
def add (g : Grammar) (mode : Mode) : Grammar × ModeId :=
  (⟨g.modes.push mode, by simp⟩, g.modes.size)

/-- Replace a mode. Nothing changes if there is none with this number. -/
def set (g : Grammar) (id : ModeId) (mode : Mode) : Grammar :=
  ⟨g.modes.setIfInBounds id mode, by simpa using g.size_pos⟩

/-- The mode with this number. -/
def get? (g : Grammar) (id : ModeId) : Option Mode := g.modes[id]?

/-- The root. -/
def root (g : Grammar) : Mode :=
  have := g.size_pos
  g.modes[0]

/-- Change the root. -/
def mapRoot (g : Grammar) (f : Mode → Mode) : Grammar := g.set rootId (f g.root)

end Grammar

/-- A named grammar. -/
structure Language where
  name : String
  aliases : List String := []
  caseInsensitive : Bool := false
  disableAutodetect : Bool := false
  grammar : Grammar

end LexicalModes
