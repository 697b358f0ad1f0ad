import LexicalModes.Compiled.Mode
import LexicalModes.Compose
import LexicalModes.Grammar

/-!
Compiling a grammar.

Modes are compiled from the root on, each into a slot of its own. A declared mode has one slot
however often it is referred to, with two exceptions: a mode with variants has one slot for each
variant, shared by all references, and a mode that ends with its parent has a slot for every place
it is contained in, because its terminators hang on the parent. A slot is reserved when the mode is
first referred to and compiled against the parent that reaches it first.
-/

namespace LexicalModes

/-- A pattern that matches anywhere and consumes nothing. -/
def anywhere : String := "\\B|\\b"

/-- What is looked up as a keyword unless a mode says otherwise. -/
def defaultLexemes : String := "\\w+"

/-- Flags in front of every pattern of a grammar. -/
def patternFlags (caseInsensitive : Bool) : String :=
  if caseInsensitive then "(?mi)" else "(?m)"

/-- Make a pattern of its source. -/
def compilePattern (caseInsensitive : Bool) (source : String) : Except CompileError Pattern :=
  match Pattern.ofText? (patternFlags caseInsensitive ++ source) with
  | some p => .ok p
  | none => .error (.pattern source "not a valid pattern")

/-- Make a pattern of its source, and keep the source. -/
def compileSourced (caseInsensitive : Bool) (source : String) :
    Except CompileError SourcedPattern := do
  return ⟨source, ← compilePattern caseInsensitive source⟩

/-- A declared text; the empty one counts as not declared. -/
def nonempty? (text : Option String) : Option String := text.filter (!·.isEmpty)

namespace Mode

/-- Source of what begins the mode inside another: its keywords as whole words, its pattern, or
anywhere. -/
def beginSource (mode : Mode) : String :=
  match mode.beginKeywords, nonempty? mode.beginPattern with
  | some words, _ => "\\b(" ++ "|".intercalate (splitWords words) ++ ")\\b"
  | none, some source => source
  | none, none => anywhere

/-- Source of the mode's own end inside another. A mode that ends with its parent may have none. -/
def endSource? (mode : Mode) : Option String :=
  if mode.flags.endSameAsBegin then some mode.beginSource
  else
    match nonempty? mode.endPattern with
    | some source => some source
    | none => if mode.flags.endsWithParent then none else some anywhere

/-- The mode's own end followed by the ends inherited from its parent. -/
def terminatorEndWith (mode : Mode) (inherited : String) : String :=
  let own := mode.endSource?.getD ""
  if !mode.flags.endsWithParent || inherited.isEmpty then own
  else if mode.endSource?.isSome then own ++ "|" ++ inherited
  else inherited

/-- The words that are keywords in the mode. -/
def keywordList (mode : Mode) : Option Keywords :=
  mode.keywords.or (mode.beginKeywords.map .plain)

/-- Compile what the mode declares of itself. Inside a parent, given by the parent's end sources,
it gets a begin and an end; the modes inside it are left open. -/
def compileTraits (mode : Mode) (caseInsensitive : Bool) (parent : Option String) :
    Except CompileError CompiledMode := do
  let keywords ← mode.keywordList.mapM (·.table caseInsensitive)
  let lexemes ← compilePattern caseInsensitive (mode.lexemes.getD defaultLexemes)
  let begins ← if parent.isSome then
      some <$> compileSourced caseInsensitive mode.beginSource
    else pure none
  let ends ← if parent.isSome then mode.endSource?.mapM (compileSourced caseInsensitive)
    else pure none
  let illegal ← (nonempty? mode.illegal).mapM (compileSourced caseInsensitive)
  return {
    className := nonempty? mode.className
    begins := begins
    ends := ends
    illegal := illegal
    lexemes := lexemes
    terminators := none
    terminatorEnd := (parent.map mode.terminatorEndWith).getD ""
    keywords := keywords
    relevance := mode.relevance.getD 1
    contains := []
    starts := none
    subLanguage := mode.subLanguage
    beginsWithKeywords := mode.beginKeywords.isSome
    flags := mode.flags }

end Mode

namespace CompiledMode

/-- What a mode adds to the terminators of the mode around it. Keywords may have a dot on either
side, so that they are recognised as something else than keywords. -/
def beginAlternative? (mode : CompiledMode) : Option String :=
  mode.begins.map fun b =>
    if mode.beginsWithKeywords then "\\.?(?:" ++ b.source ++ ")\\.?" else b.source

/-- Sources of what may interrupt the mode, given the modes inside it. -/
def alternatives (mode : CompiledMode) (children : List CompiledMode) : List String :=
  (children.filterMap beginAlternative? ++
    mode.terminatorEnd :: (mode.illegal.map (·.source)).toList).filter (!·.isEmpty)

/-- The pattern of what may interrupt the mode, if anything may. -/
def compileTerminators (mode : CompiledMode) (caseInsensitive : Bool)
    (children : List CompiledMode) : Except CompileError (Option Pattern) :=
  match mode.alternatives children with
  | [] => .ok none
  | sources => some <$> compilePattern caseInsensitive (compose sources "|")

end CompiledMode

/-- A place for a compiled mode. -/
inductive Slot
  /-- Kept for a mode that is still to be compiled. -/
  | reserved (mode : Mode)
  /-- Compiled, though perhaps not all modes inside it are. -/
  | compiled (mode : CompiledMode)

/-- The state of compiling a grammar. -/
structure Workbench where
  slots : Array Slot := #[]
  /-- Slots of declared modes. -/
  declared : List (ModeId × ModeIndex) := []
  /-- Slots of the variants of modes. -/
  variants : List (ModeId × List ModeIndex) := []

namespace Workbench

/-- Reserve a slot for a mode. -/
def reserve (w : Workbench) (mode : Mode) : Workbench × ModeIndex :=
  ({ w with slots := w.slots.push (.reserved mode) }, w.slots.size)

/-- Reserve slots for modes, in order. -/
def reserveAll (w : Workbench) : List Mode → Workbench × List ModeIndex
  | [] => (w, [])
  | mode :: rest =>
    let (w, index) := w.reserve mode
    let (w, indices) := w.reserveAll rest
    (w, index :: indices)

/-- Put a compiled mode into its slot. -/
def fill (w : Workbench) (index : ModeIndex) (mode : CompiledMode) : Workbench :=
  { w with slots := w.slots.setIfInBounds index (.compiled mode) }

/-- The compiled mode in a slot. -/
def compiledAt (w : Workbench) (index : ModeIndex) : Except CompileError CompiledMode :=
  match w.slots[index]? with
  | some (.compiled mode) => .ok mode
  | _ => .error (.unresolved index)

/-- The declaration of a mode. -/
def declaration (g : Grammar) (id : ModeId) : Except CompileError Mode :=
  match g.get? id with
  | some mode => .ok mode
  | none => .error (.danglingMode id)

/-- The slot of a declared mode, reserved the first time it is asked for. -/
def slotOf (w : Workbench) (g : Grammar) (id : ModeId) :
    Except CompileError (Workbench × ModeIndex) :=
  match w.declared.lookup id with
  | some index => .ok (w, index)
  | none => do
    let mode ← declaration g id
    let (w, index) := w.reserve mode
    return ({ w with declared := (id, index) :: w.declared }, index)

/-- The slots that an entry of a list of contained modes stands for. -/
def expand (w : Workbench) (g : Grammar) (this : ModeIndex) :
    Contained → Except CompileError (Workbench × List ModeIndex)
  | .this => .ok (w, [this])
  | .mode id => do
    let mode ← declaration g id
    if !mode.variants.isEmpty then
      match w.variants.lookup id with
      | some indices => return (w, indices)
      | none =>
        let (w, indices) := w.reserveAll (mode.variants.map mode.overlay)
        return ({ w with variants := (id, indices) :: w.variants }, indices)
    else if mode.flags.endsWithParent then
      let (w, index) := w.reserve mode
      return (w, [index])
    else
      let (w, index) ← w.slotOf g id
      return (w, [index])

/-- The slots that a list of contained modes stands for. -/
def expandAll (w : Workbench) (g : Grammar) (this : ModeIndex) :
    List Contained → Except CompileError (Workbench × List ModeIndex)
  | [] => .ok (w, [])
  | entry :: rest => do
    let (w, first) ← w.expand g this entry
    let (w, others) ← w.expandAll g this rest
    return (w, first ++ others)

/-- End sources of the parent, if there is a parent. -/
def inheritedEnd (w : Workbench) : Option ModeIndex → Except CompileError (Option String)
  | none => .ok none
  | some parent => do return some (← w.compiledAt parent).terminatorEnd

/-- Compile the mode of a slot against a parent, unless that has been done or is under way. The
fuel bounds how deep modes are reached through one another. A mode that follows this one lives in
the same parent. -/
def ensure (g : Grammar) (caseInsensitive : Bool) :
    Nat → ModeIndex → Option ModeIndex → Workbench → Except CompileError Workbench
  | fuel, index, parent, w =>
    match w.slots[index]? with
    | some (.reserved mode) =>
      match fuel with
      | 0 => .error .endless
      | fuel + 1 => do
        let shell ← mode.compileTraits caseInsensitive (← w.inheritedEnd parent)
        let w := w.fill index shell
        let (w, contains) ← w.expandAll g index mode.contains
        let w ← contains.foldlM
          (fun w child => ensure g caseInsensitive fuel child (some index) w) w
        let (w, starts) ← match mode.starts with
          | some id => do
            let (w, following) ← w.slotOf g id
            let w ← ensure g caseInsensitive fuel following parent w
            pure (w, some following)
          | none => pure (w, none)
        let children ← contains.mapM w.compiledAt
        let self ← w.compiledAt index
        let terminators ← self.compileTerminators caseInsensitive children
        return w.fill index
          { self with contains := contains, starts := starts, terminators := terminators }
    | _ => .ok w

/-- The compiled modes, if no slot was left open. -/
def finish (w : Workbench) : Except CompileError (Array CompiledMode) :=
  (Array.range w.slots.size).mapM w.compiledAt

end Workbench

namespace Grammar

/-- How deep modes can be reached through one another when copies of modes that end with their
parent do not contain each other without end: between two of the shared modes, of which there are at
most as many as declared modes and variants, every copy is of another declared mode. -/
def depthBound (g : Grammar) : Nat :=
  let shared := g.modes.foldl (fun n mode => n + 1 + mode.variants.length) 0
  (shared + 1) * (g.size + 1) + 1

/-- Compile the grammar, starting from its root. -/
def compile (g : Grammar) (caseInsensitive : Bool) : Except CompileError CompiledGrammar := do
  let (w, root) ← Workbench.slotOf {} g rootId
  let w ← Workbench.ensure g caseInsensitive g.depthBound root none w
  return ⟨← w.finish, caseInsensitive⟩

end Grammar

/-- Compile the grammar of the language. -/
def Language.compile (l : Language) : Except CompileError CompiledGrammar :=
  l.grammar.compile l.caseInsensitive

end LexicalModes
