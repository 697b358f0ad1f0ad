import LexicalModes.Grammar.Mode

/-!
Why a grammar cannot be compiled.
-/

namespace LexicalModes

/-- A grammar that contradicts itself and cannot be compiled. -/
inductive CompileError
  /-- A pattern is not valid, for the given reason. -/
  | pattern (source reason : String)
  /-- The weight after a keyword's bar is not a number in range. -/
  | keywordWeight (keyword : String)
  /-- A mode refers to one that is not in the grammar. -/
  | danglingMode (id : ModeId)
  /-- A place kept for a compiled mode was never filled. -/
  | unresolved (index : Nat)
  /-- Modes that end with their parent contain each other, so that copies never end. -/
  | endless
  deriving DecidableEq, Repr

namespace CompileError

/-- What went wrong, without the reason a pattern was refused. -/
def summary : CompileError → String
  | .pattern source _ => "invalid pattern /" ++ source ++ "/"
  | .keywordWeight keyword => "invalid relevance weight in keyword \"" ++ keyword ++ "\""
  | .danglingMode id => "reference to mode " ++ id.repr ++ " which is not in the grammar"
  | .unresolved index => "compiled mode " ++ index.repr ++ " was never resolved"
  | .endless => "modes that end with their parent contain each other"

/-- What went wrong, in full. -/
def message (e : CompileError) : String :=
  match e with
  | .pattern _ reason => e.summary ++ ": " ++ reason
  | _ => e.summary

end CompileError

end LexicalModes
