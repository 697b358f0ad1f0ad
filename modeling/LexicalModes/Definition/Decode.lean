import LexicalModes.Definition.Field
import LexicalModes.Json.Reader

/-!
Reading definitions from JSON.

The text is taken in order, so the first fault or mismatch decides the error. Modes inside other
modes, and the fields of the root mode, are read completely before their shape is judged: a fault
inside them comes before any mismatch. A mode may be written as an object, or as an array of its
fields in their fixed order. Keys that are not known are passed over.
-/

namespace LexicalModes

namespace Decode

mutual

/-- Read a mode. With `streamed` it is read as it comes, else it is known to be free of faults; the
difference shows only in an array with too many fields. -/
def mode (streamed : Bool) (depth : Nat) : Json → Result ModeDefinition
  | .object fields =>
    match depth with
    | 0 => .error (.fault .malformed)
    | depth + 1 => modeFields streamed depth [] {} fields
  | .array items =>
    match depth with
    | 0 => .error (.fault .malformed)
    | depth + 1 => modeItems streamed depth (fieldKeys.map (·.2)) {} items
  | .string s => .error (mismatchOf (.string s))
  | .number n => .error (mismatchOf (.number n))
  | .broken f => .error (.fault f)
  | .null => .error .mismatch
  | .bool _ => .error .mismatch

/-- Read the fields of a mode by key. A known key may occur once. -/
def modeFields (streamed : Bool) (depth : Nat) (seen : List Field) (m : ModeDefinition) :
    Fields → Result ModeDefinition
  | .done => .ok m
  | .broken f => .error (.fault f)
  | .field key value rest => do
    match fieldKeys.lookup (← lift key.value) with
    | some f =>
      if seen.contains f then throw .mismatch
      let m ← modeField streamed depth m f value
      modeFields streamed depth (f :: seen) m rest
    | none =>
      lift value.skim
      modeFields streamed depth seen m rest

/-- Read the fields of a mode by position. -/
def modeItems (streamed : Bool) (depth : Nat) (fields : List Field) (m : ModeDefinition) :
    Items → Result ModeDefinition
  | .done => .ok m
  | .broken f => .error (.fault f)
  | .item value rest =>
    match fields with
    | [] => .error (if streamed then .fault .malformed else .mismatch)
    | f :: fields => do
      let m ← modeField streamed depth m f value
      modeItems streamed depth fields m rest

/-- Read one field of a mode. -/
def modeField (streamed : Bool) (depth : Nat) (m : ModeDefinition) (f : Field) :
    Json → Result ModeDefinition
  | .array items =>
    match f, depth with
    | .contains, 0 | .variants, 0 | .starts, 0 => .error (.fault .malformed)
    | .contains, depth + 1 => do return { m with contains := ← references depth items }
    | .variants, depth + 1 => do return { m with variants := ← variants streamed depth items }
    | .starts, depth + 1 => do
      lift (Json.checkItems depth items)
      let target ← modeItems false depth (fieldKeys.map (·.2)) {} items
      return { m with starts := some (.inline target) }
    | f, depth => leafField depth m f (.array items)
  | .object fields =>
    match f, depth with
    | .starts, 0 => .error (.fault .malformed)
    | .starts, depth + 1 => do
      lift (Json.checkFields depth fields)
      return { m with starts := some (.inline (← modeFields false depth [] {} fields)) }
    | f, depth => leafField depth m f (.object fields)
  | .string s => leafField depth m f (.string s)
  | .number n => leafField depth m f (.number n)
  | .bool b => leafField depth m f (.bool b)
  | .null => leafField depth m f .null
  | .broken fault => .error (.fault fault)

/-- Read a mode given by name or written in place. It is read completely before it is judged. -/
def reference (depth : Nat) : Json → Result Reference
  | .string s => do return .named (← lift s.value)
  | .object fields => do
    match depth with
    | 0 => throw (.fault .malformed)
    | depth + 1 =>
      lift (Json.checkFields depth fields)
      return .inline (← modeFields false depth [] {} fields)
  | .array items => do
    match depth with
    | 0 => throw (.fault .malformed)
    | depth + 1 =>
      lift (Json.checkItems depth items)
      return .inline (← modeItems false depth (fieldKeys.map (·.2)) {} items)
  | .number n => .error (mismatchOf (.number n))
  | .broken f => .error (.fault f)
  | .null => .error .mismatch
  | .bool _ => .error .mismatch

/-- Read the items of a list of contained modes. -/
def references (depth : Nat) : Items → Result (List Reference)
  | .done => .ok []
  | .broken f => .error (.fault f)
  | .item value rest => do return (← reference depth value) :: (← references depth rest)

/-- Read the items of a list of variants. -/
def variants (streamed : Bool) (depth : Nat) : Items → Result (List ModeDefinition)
  | .done => .ok []
  | .broken f => .error (.fault f)
  | .item value rest => do return (← mode streamed depth value) :: (← variants streamed depth rest)

end

/-- Read the named modes; of two with the same name the later counts. -/
def namedModes (depth : Nat) : Fields → Result (List (String × ModeDefinition))
  | .done => .ok []
  | .broken f => .error (.fault f)
  | .field key value rest => do
    let name ← lift key.value
    let definition ← mode true depth value
    return (name, definition) :: (← namedModes depth rest)

/-- A language being read: the fields that have been met, and those left for the root mode. -/
structure Draft where
  name : Option String := none
  aliases : Option (List String) := none
  caseInsensitive : Option Bool := none
  disableAutodetect : Option Bool := none
  modes : Option (OrderedMap ModeDefinition) := none
  /-- Fields of the root mode, the latest first. -/
  others : List (String × Json) := []

/-- A field may be met once. -/
def once {α : Type} (slot : Option α) (read : Result α) : Result (Option α) :=
  if slot.isSome then .error .mismatch else some <$> read

/-- Read the named modes of a language. -/
def modesObject (depth : Nat) : Json → Result (OrderedMap ModeDefinition)
  | .object fields =>
    match depth with
    | 0 => .error (.fault .malformed)
    | depth + 1 => do return .ofList (← namedModes depth fields)
  | value => .error (mismatchOf value)

/-- Read one field of a language. -/
def draftField (depth : Nat) (d : Draft) (key : String) (value : Json) : Result Draft :=
  match key with
  | "name" => do return { d with name := ← once d.name (string value) }
  | "aliases" => do return { d with aliases := ← once d.aliases (strings depth value) }
  | "caseInsensitive" => do
    return { d with caseInsensitive := ← once d.caseInsensitive (bool value) }
  | "disableAutodetect" => do
    return { d with disableAutodetect := ← once d.disableAutodetect (bool value) }
  | "modes" => do return { d with modes := ← once d.modes (modesObject depth value) }
  | key => do
    lift (value.check depth)
    return { d with others := (key, value) :: d.others }

/-- Read the fields of a language in order. -/
def draftFields (depth : Nat) (d : Draft) : Fields → Result Draft
  | .done => .ok d
  | .broken f => .error (.fault f)
  | .field key value rest => do
    let d ← draftField depth d (← lift key.value) value
    draftFields depth d rest

/-- Read the root mode from the fields that were left for it. -/
def rootFields (depth : Nat) (seen : List Field) (m : ModeDefinition) :
    List (String × Json) → Result ModeDefinition
  | [] => .ok m
  | (key, value) :: rest =>
    match fieldKeys.lookup key with
    | some f => do
      if seen.contains f then throw .mismatch
      let m ← modeField false depth m f value
      rootFields depth (f :: seen) m rest
    | none => rootFields depth seen m rest

/-- Read a language. -/
def language (depth : Nat) : Json → Result LanguageDefinition
  | .object fields =>
    match depth with
    | 0 => .error (.fault .malformed)
    | depth + 1 => do
      let d ← draftFields depth {} fields
      match d.name with
      | none => throw .mismatch
      | some name =>
        let root ← rootFields depth [] {} d.others.reverse
        return {
          name := name
          aliases := d.aliases.getD []
          caseInsensitive := d.caseInsensitive.getD false
          disableAutodetect := d.disableAutodetect.getD false
          modes := d.modes.getD {}
          root := root }
  | value => .error (mismatchOf value)

end Decode

namespace LanguageDefinition

/-- Read a definition from JSON. -/
def ofJson (value : Json) : Except DefinitionError LanguageDefinition :=
  Decode.language Json.depthLimit value

/-- Read a definition from its text, with nothing but blanks after it. -/
def ofText (text : String) : Except DefinitionError LanguageDefinition := do
  let document := Json.read text
  let definition ← ofJson document.value
  match document.trailing with
  | some f => throw (.fault f)
  | none => return definition

end LanguageDefinition

namespace Language

/-- The language that a definition describes. -/
def ofDefinition (d : LanguageDefinition) : Except DefinitionError Language :=
  d.toLanguage.mapError fun e => .unknownMode e.name

/-- The language that the JSON of a definition describes. -/
def ofJson (value : Json) : Except DefinitionError Language := do
  ofDefinition (← LanguageDefinition.ofJson value)

/-- The language that the text of a definition describes. -/
def ofText (text : String) : Except DefinitionError Language := do
  ofDefinition (← LanguageDefinition.ofText text)

end Language

end LexicalModes
