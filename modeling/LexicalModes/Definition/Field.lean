import LexicalModes.Definition
import LexicalModes.Definition.Error

/-!
The fields of a mode in JSON.

Each field has a key and a place in the order in which an array lists the fields. The readers here
take the value of a field that holds no modes; the first fault or mismatch in it decides the error.
Values that may have several shapes are read completely before their shape is judged.
-/

namespace LexicalModes

namespace Decode

/-- A value read, or the first thing wrong with it. -/
abbrev Result := Except DefinitionError

/-- Report a fault. -/
def lift {α : Type} (x : Except Fault α) : Result α := x.mapError .fault

/-- The error for a value of the wrong shape. Plain values are read before they are judged, arrays
and objects are not. -/
def mismatchOf : Json → DefinitionError
  | .string s => match s.value with
    | .ok _ => .mismatch
    | .error f => .fault f
  | .number .tooLarge => .fault .malformed
  | .broken f => .fault f
  | _ => .mismatch

/-- Read a string. -/
def string : Json → Result String
  | .string s => lift s.value
  | value => .error (mismatchOf value)

/-- Read a truth value. -/
def bool : Json → Result Bool
  | .bool b => .ok b
  | value => .error (mismatchOf value)

/-- Read a relevance. -/
def relevance : Json → Result Relevance
  | .number (.natural n) => if n ≤ Relevance.largest then .ok n else .error .mismatch
  | value => .error (mismatchOf value)

/-- Read a value that may be absent. -/
def optional {α : Type} (read : Json → Result α) : Json → Result (Option α)
  | .null => .ok none
  | value => some <$> read value

/-- Read the strings of an array. -/
def stringItems : Items → Result (List String)
  | .done => .ok []
  | .broken f => .error (.fault f)
  | .item value rest => do return (← string value) :: (← stringItems rest)

/-- Read an array of strings, when arrays may be entered so deep. -/
def strings (depth : Nat) : Json → Result (List String)
  | .array items => if depth = 0 then .error (.fault .malformed) else stringItems items
  | value => .error (mismatchOf value)

/-- Read the fields of an object whose values are strings. -/
def stringFields : Fields → Result (List (String × String))
  | .done => .ok []
  | .broken f => .error (.fault f)
  | .field key value rest => do
    return (← lift key.value, ← string value) :: (← stringFields rest)

/-- Read keywords: a list of words, or lists by class. -/
def keywords (depth : Nat) (value : Json) : Result Keywords := do
  lift (value.check depth)
  match value with
  | .string s => return .plain (← lift s.value)
  | .object fields => return .classes (.ofList (← stringFields fields))
  | _ => throw .mismatch

/-- Read what a mode embeds: a language, or several to choose from. -/
def subLanguage (depth : Nat) (value : Json) : Result SubLanguage := do
  lift (value.check depth)
  match value with
  | .string s => return .fixed (← lift s.value)
  | .array items => return .auto (← stringItems items)
  | _ => throw .mismatch

/-- The flags of a mode. -/
inductive Flag
  | skip | excludeBegin | excludeEnd | returnBegin | returnEnd
  | endsWithParent | endsParent | endSameAsBegin
  deriving DecidableEq, Repr

/-- Set a flag. -/
def Flag.set (flags : ModeFlags) (b : Bool) : Flag → ModeFlags
  | .skip => { flags with skip := b }
  | .excludeBegin => { flags with excludeBegin := b }
  | .excludeEnd => { flags with excludeEnd := b }
  | .returnBegin => { flags with returnBegin := b }
  | .returnEnd => { flags with returnEnd := b }
  | .endsWithParent => { flags with endsWithParent := b }
  | .endsParent => { flags with endsParent := b }
  | .endSameAsBegin => { flags with endSameAsBegin := b }

/-- The fields of a mode. -/
inductive Field
  | className | beginPattern | beginKeywords | endPattern | illegal | lexemes | keywords
  | relevance | contains | variants | starts | subLanguage
  | flag (f : Flag)
  deriving DecidableEq, Repr

/-- The fields with their keys, in the order in which an array lists them. -/
def fieldKeys : List (String × Field) :=
  [("className", .className), ("begin", .beginPattern), ("beginKeywords", .beginKeywords),
   ("end", .endPattern), ("illegal", .illegal), ("lexemes", .lexemes), ("keywords", .keywords),
   ("relevance", .relevance), ("contains", .contains), ("variants", .variants),
   ("starts", .starts), ("subLanguage", .subLanguage), ("skip", .flag .skip),
   ("excludeBegin", .flag .excludeBegin), ("excludeEnd", .flag .excludeEnd),
   ("returnBegin", .flag .returnBegin), ("returnEnd", .flag .returnEnd),
   ("endsWithParent", .flag .endsWithParent), ("endsParent", .flag .endsParent),
   ("endSameAsBegin", .flag .endSameAsBegin)]

/-- Read a field that does not refer to other modes into the traits; absent for the others. -/
def trait? (depth : Nat) (traits : Traits) (value : Json) : Field → Option (Result Traits)
  | .className => some do return { traits with className := ← optional string value }
  | .beginPattern => some do return { traits with beginPattern := ← optional string value }
  | .beginKeywords => some do return { traits with beginKeywords := ← optional string value }
  | .endPattern => some do return { traits with endPattern := ← optional string value }
  | .illegal => some do return { traits with illegal := ← optional string value }
  | .lexemes => some do return { traits with lexemes := ← optional string value }
  | .keywords => some do
    return { traits with keywords := ← optional (Decode.keywords depth) value }
  | .relevance => some do
    return { traits with relevance := ← optional Decode.relevance value }
  | .subLanguage => some do
    return { traits with subLanguage := ← optional (Decode.subLanguage depth) value }
  | .flag f => some do return { traits with flags := f.set traits.flags (← bool value) }
  | .contains | .variants | .starts => none

/-- Read a field whose value holds no modes. -/
def leafField (depth : Nat) (m : ModeDefinition) (f : Field) (value : Json) :
    Result ModeDefinition :=
  match trait? depth m.traits value f with
  | some traits => do return { m with traits := ← traits }
  | none =>
    match f, value with
    | .starts, .null => .ok { m with starts := none }
    | .starts, .string s => do return { m with starts := some (.named (← lift s.value)) }
    | _, value => .error (mismatchOf value)

end Decode

end LexicalModes
