import LexicalModes.Definition.Decode
import LexicalModes.Files

/-!
Loading languages from definition files.
-/

namespace LexicalModes

/-- Why a file could not be loaded. -/
structure LoadingError where
  problem : String
  details : String
  filename : String
  deriving DecidableEq, Repr

namespace LoadingError

/-- What went wrong. -/
def message (e : LoadingError) : String :=
  if e.details.isEmpty then e.problem ++ ": " ++ e.filename
  else e.problem ++ ": " ++ e.filename ++ ": " ++ e.details

/-- A file that could not be read. -/
def ofRead (filename : String) : ReadError → LoadingError
  | .notFound => ⟨"File not found", "", filename⟩
  | e => ⟨"Failed reading", e.description, filename⟩

/-- A file that does not hold a definition. -/
def ofDefinition (filename : String) (e : DefinitionError) : LoadingError :=
  ⟨"Invalid grammar", e.message, filename⟩

end LoadingError

/-- Why a file gave no language: it could not be read, or it does not hold a definition. -/
inductive LoadFailure
  | reading (e : ReadError)
  | definition (e : DefinitionError)
  deriving DecidableEq, Repr

/-- The failure as it is reported. -/
def LoadFailure.toError (filename : String) : LoadFailure → LoadingError
  | .reading e => .ofRead filename e
  | .definition e => .ofDefinition filename e

/-- Read a language from a definition file. -/
def loadLanguage {m : Type → Type} [Monad m] (files : FileAccess m) (filename : String) :
    m (Except LoadFailure Language) := do
  match ← files.readText filename with
  | .error e => return .error (.reading e)
  | .ok text => return (Language.ofText text).mapError .definition

end LexicalModes
