import LexicalModes.Json

/-!
Why a text does not define a language.
-/

namespace LexicalModes

/-- Why a text is not a definition. -/
inductive DefinitionError
  /-- The text is not JSON. -/
  | fault (f : Fault)
  /-- The text is JSON and not of the shape of a definition. -/
  | mismatch
  /-- A mode is referred to by a name that is not declared. -/
  | unknownMode (name : String)
  deriving DecidableEq, Repr

namespace DefinitionError

/-- What went wrong. -/
def message : DefinitionError → String
  | .fault .truncated => "the definition ends too early"
  | .fault .malformed => "the definition is not valid JSON"
  | .mismatch => "the definition does not have the expected shape"
  | .unknownMode name => "no mode named \"" ++ name ++ "\""

end DefinitionError

end LexicalModes
