import LexicalModes.Grammar

/-!
Languages as they are written in definition files.

A definition names the language and describes its root mode in place. Modes that are used in more
than one place are declared under names; a mode inside another is given by name or written out where
it is used. `LanguageDefinition.toLanguage` numbers all modes: the root first, then the named modes
in the order of their names, then the modes written in place as they are met.
-/

namespace LexicalModes

mutual

/-- A mode as written. -/
structure ModeDefinition where
  traits : Traits := {}
  contains : List Reference := []
  variants : List ModeDefinition := []
  starts : Option Reference := none

/-- A mode given by name or written in place. -/
inductive Reference
  | named (name : String)
  | inline (mode : ModeDefinition)

end

/-- A language as written. -/
structure LanguageDefinition where
  name : String
  aliases : List String := []
  caseInsensitive : Bool := false
  disableAutodetect : Bool := false
  modes : OrderedMap ModeDefinition := {}
  root : ModeDefinition := {}

/-- The name that stands for the containing mode in a list of contained modes. -/
def selfName : String := "self"

/-- The numbers of named modes. -/
abbrev ModeNames := List (String × ModeId)

/-- A name that no mode is declared under. -/
structure UnknownMode where
  name : String
  deriving DecidableEq, Repr

mutual

/-- The mode of a definition, with the modes written inside it added to the grammar first: contained
modes, then those of variants, then the one that follows. -/
def ModeDefinition.convert (names : ModeNames) (g : Grammar) :
    ModeDefinition → Except UnknownMode (Grammar × Mode)
  | ⟨traits, contains, variants, starts⟩ => do
    let (g, contains) ← convertContained names g contains
    let (g, variants) ← convertVariants names g variants
    let (g, starts) ← convertStarts names g starts
    return (g,
      { toTraits := traits, contains := contains, variants := variants, starts := starts })

/-- The number of the mode that a reference stands for. -/
def Reference.resolve (names : ModeNames) (g : Grammar) :
    Reference → Except UnknownMode (Grammar × ModeId)
  | .named name =>
    match names.lookup name with
    | some id => .ok (g, id)
    | none => .error ⟨name⟩
  | .inline mode => do
    let (g, mode) ← mode.convert names g
    return g.add mode

/-- The entry that a reference in a list of contained modes stands for. -/
def Reference.toContained (names : ModeNames) (g : Grammar) :
    Reference → Except UnknownMode (Grammar × Contained)
  | .named name =>
    if name = selfName then .ok (g, .this)
    else
      match names.lookup name with
      | some id => .ok (g, .mode id)
      | none => .error ⟨name⟩
  | .inline mode => do
    let (g, mode) ← mode.convert names g
    let (g, id) := g.add mode
    return (g, .mode id)

/-- The entries of a list of contained modes, in order. -/
def convertContained (names : ModeNames) (g : Grammar) :
    List Reference → Except UnknownMode (Grammar × List Contained)
  | [] => .ok (g, [])
  | reference :: rest => do
    let (g, first) ← reference.toContained names g
    let (g, others) ← convertContained names g rest
    return (g, first :: others)

/-- The modes of variants, in order. -/
def convertVariants (names : ModeNames) (g : Grammar) :
    List ModeDefinition → Except UnknownMode (Grammar × List Mode)
  | [] => .ok (g, [])
  | variant :: rest => do
    let (g, first) ← variant.convert names g
    let (g, others) ← convertVariants names g rest
    return (g, first :: others)

/-- The number of the mode that follows, if there is one. -/
def convertStarts (names : ModeNames) (g : Grammar) :
    Option Reference → Except UnknownMode (Grammar × Option ModeId)
  | none => .ok (g, none)
  | some reference => do
    let (g, id) ← reference.resolve names g
    return (g, some id)

end

namespace LanguageDefinition

/-- Convert the named modes in order, each into the place that was kept for it. -/
def convertNamed (names : ModeNames) (g : Grammar) :
    List (String × ModeDefinition) → Except UnknownMode Grammar
  | [] => .ok g
  | (name, definition) :: rest => do
    let (g, mode) ← definition.convert names g
    let g := match names.lookup name with
      | some id => g.set id mode
      | none => g
    convertNamed names g rest

/-- The numbers of the named modes: places are kept for them right after the root. -/
def modeNames (d : LanguageDefinition) : ModeNames :=
  d.modes.keys.zip (List.range' 1 d.modes.size)

/-- A grammar with empty places for the root and the named modes. -/
def places (d : LanguageDefinition) : Grammar :=
  d.modes.keys.foldl (fun g _ => (g.add {}).1) (.ofRoot {})

/-- The language that a definition describes, or the first name in it that is not declared. -/
def toLanguage (d : LanguageDefinition) : Except UnknownMode Language := do
  let g ← convertNamed d.modeNames d.places d.modes.entries
  let (g, root) ← d.root.convert d.modeNames g
  return {
    name := d.name
    aliases := d.aliases
    caseInsensitive := d.caseInsensitive
    disableAutodetect := d.disableAutodetect
    grammar := g.set Grammar.rootId root }

end LanguageDefinition

end LexicalModes
