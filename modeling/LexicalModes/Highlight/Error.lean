import LexicalModes.Compiled.Error
import LexicalModes.Pattern.Search

/-!
Why a text cannot be highlighted.

A call that gives no result has failed for one of the reasons of `HighlightFault`. Besides, it is
bounded from outside: it may take only so many steps over a text, and go only so deep into embedded
languages. That such a `Limit` was met is an outcome of its own, and no fault.
-/

namespace LexicalModes

/-- Reasons a call can fail. -/
inductive HighlightFault
  /-- No language is registered under this name or alias. -/
  | unknownLanguage (name : String)
  /-- The text has something that is illegal in the mode it stands in. -/
  | illegalLexeme (mode lexeme : String)
  /-- The grammar cannot be compiled. -/
  | malformedGrammar (cause : CompileError)
  /-- The search for a pattern was given up, for the given reason. -/
  | matching (reason : String)
  /-- A continuation of one language was handed to another. -/
  | foreignContinuation (expected found : String)
  deriving DecidableEq, Repr

/-- What a call is allowed only so much of. -/
inductive Limit
  /-- Steps of the scan of a text. -/
  | steps
  /-- Languages embedded in each other. -/
  | depth
  deriving DecidableEq, Repr

/-- Why a call has no result. It has failed; or it was stopped at a limit before it came to a result
or a fault, and nothing is said of what it would have come to. -/
inductive HighlightError
  | failed (fault : HighlightFault)
  | stopped (limit : Limit)
  deriving DecidableEq, Repr

namespace HighlightFault

/-- What went wrong. -/
def message : HighlightFault → String
  | .unknownLanguage name => "Unknown language: \"" ++ name ++ "\""
  | .illegalLexeme mode lexeme =>
    "Illegal lexeme \"" ++ lexeme ++ "\" for mode \"" ++ mode ++ "\""
  | .malformedGrammar cause => "Malformed grammar: " ++ cause.message
  | .matching reason => "Pattern failed to match: " ++ reason
  | .foreignContinuation expected found =>
    "Continuation from \"" ++ found ++ "\" cannot resume \"" ++ expected ++ "\""

/-- A match attempt that was given up. -/
def ofMatchError : Pattern.MatchError → HighlightFault
  | .backtrackLimit =>
    .matching "Error executing regex: Max limit for backtracking count exceeded"
  | .choiceLimit => .matching "Error executing regex: Max stack size exceeded for backtracking"

end HighlightFault

namespace HighlightError

@[match_pattern, inherit_doc HighlightFault.unknownLanguage]
abbrev unknownLanguage (name : String) : HighlightError := .failed (.unknownLanguage name)

@[match_pattern, inherit_doc HighlightFault.illegalLexeme]
abbrev illegalLexeme (mode lexeme : String) : HighlightError := .failed (.illegalLexeme mode lexeme)

@[match_pattern, inherit_doc HighlightFault.malformedGrammar]
abbrev malformedGrammar (cause : CompileError) : HighlightError := .failed (.malformedGrammar cause)

@[match_pattern, inherit_doc HighlightFault.matching]
abbrev matching (reason : String) : HighlightError := .failed (.matching reason)

@[match_pattern, inherit_doc HighlightFault.foreignContinuation]
abbrev foreignContinuation (expected found : String) : HighlightError :=
  .failed (.foreignContinuation expected found)

/-- The scan of a text was stopped. -/
@[match_pattern] abbrev endless : HighlightError := .stopped .steps

/-- Languages were embedded in each other too deep. -/
@[match_pattern] abbrev tooDeep : HighlightError := .stopped .depth

/-- What went wrong, or which limit was met. -/
def message : HighlightError → String
  | .failed fault => fault.message
  | .stopped .steps => "The steps that a text may take are used up"
  | .stopped .depth => "Languages are embedded in each other too deep"

/-- A match attempt that was given up. -/
abbrev ofMatchError (e : Pattern.MatchError) : HighlightError := .failed (.ofMatchError e)

end HighlightError

/-- The result of a match attempt as part of highlighting. -/
def liftMatch {α : Type} (result : Except Pattern.MatchError α) : Except HighlightFault α :=
  result.mapError HighlightFault.ofMatchError

end LexicalModes
