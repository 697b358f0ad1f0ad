import LexicalModes.Highlight.Emit
import LexicalModes.Registry

/-!
Highlighting of whole texts.

`Highlighter.highlightWith` highlights by a named language, `highlightLanguage` by one that need not
be registered, and `highlightAmong` by whichever of several languages scores best. Embedded
languages are looked up in the registry and highlighted in the same way (`Highlighter.embedding`),
up to a limit on how deep languages are embedded in each other. Another limit is on the steps that
the scan of a text may take. What is said of highlighting is said for all limits.
-/

namespace LexicalModes

/-- Settings for a single call. -/
structure Options where
  /-- Treat what is illegal as ordinary text. -/
  ignoreIllegals : Bool := false
  /-- Take up where an earlier call on the text before finished. -/
  continuation : Option Continuation := none

/-- The best of several languages for a text, and the second best. -/
structure Detection where
  best : Highlighted
  second : Option Highlighted

/-- What languages are looked up in, and which are tried when no names are given. -/
structure Highlighter where
  registry : Registry
  /-- Languages to try; all registered ones if this is absent. -/
  candidates : Option (List String) := none
  /-- How deep languages may be embedded in each other. -/
  embeddingLimit : Nat := 0x10000
  /-- How many steps the scan of a text may take. -/
  stepLimit : StepLimit := fun g text stack => Scan.fuelFor g text stack + 0x100000

/-- Where highlighting starts: at the root, or where the continuation finished if it is one of this
language. -/
def Options.startFor (options : Options) (language : String) : Except HighlightError Stack :=
  match options.continuation with
  | none => .ok .empty
  | some c =>
    if c.language = language then .ok c.stack
    else .error (.foreignContinuation language c.language)

/-- Highlight a text by a compiled grammar. Errors of embedded languages come before an error that
ends the scan later. -/
def highlightByGrammar (g : CompiledGrammar) (embedding : Embedding) (name : String)
    (ignoreIllegals : Bool) (stack : Stack) (content : String) : Traced Highlighted := do
  let scanned := scan g embedding.stepLimit ignoreIllegals stack content
  let e ← Emission.addAll g embedding {} scanned.events
  let last ← Traced.ofExcept scanned.outcome
  return ⟨some name, e.relevance, e.stream.toList, some ⟨name, last⟩⟩

/-- A text with something illegal in it is left as it is. -/
def Traced.orVerbatim (content : String) (h : Traced Highlighted) : Traced Highlighted :=
  match h.value with
  | .error (.illegalLexeme _ _) => { h with value := .ok (.verbatim content) }
  | _ => h

/-- Highlight a text by a language whose compiled grammar is given. -/
def highlightCompiled (embedding : Embedding) (name : String)
    (grammar : Except CompileError CompiledGrammar) (used : List String) (content : String)
    (options : Options) : Traced Highlighted :=
  match grammar with
  | .error cause => .fail (.malformedGrammar cause)
  | .ok g => do
    Traced.note used
    let stack ← Traced.ofExcept (options.startFor name)
    (highlightByGrammar g embedding name options.ignoreIllegals stack content).orVerbatim content

/-- The two best results so far. -/
structure Ranking where
  best : Highlighted
  second : Highlighted

namespace Ranking

/-- No language has been tried. -/
def start (content : String) : Ranking := ⟨.verbatim content, .verbatim content⟩

/-- Take another result into account. It has to score more than an earlier one to come before
it. -/
def add (r : Ranking) (h : Highlighted) : Ranking :=
  if h.relevance > r.best.relevance then ⟨h, r.best⟩
  else if h.relevance > r.second.relevance then ⟨r.best, h⟩
  else r

/-- The best result and, if a language gave it, the second best. -/
def toDetection (r : Ranking) : Detection :=
  ⟨r.best, if r.second.language.isSome then some r.second else .none⟩

end Ranking

namespace Highlighter

/-- Entries of the languages to try: those named, else the candidates, else all. Unknown names are
passed over, and so are languages that do not take part in detection. -/
def entriesAmong (h : Highlighter) (names : List String) : List (String × Entry) :=
  let all :=
    if !names.isEmpty then names.filterMap h.registry.find?
    else
      match h.candidates with
      | some candidates => candidates.filterMap h.registry.find?
      | .none => h.registry.languages.entries
  all.filter (!·.2.language.disableAutodetect)

/-- Highlight a text by an entry of the registry. -/
def highlightEntry (embedding : Embedding) (entry : String × Entry) (content : String)
    (options : Options) : Traced Highlighted :=
  highlightCompiled embedding entry.2.language.name entry.2.grammar.get [entry.1] content options

/-- Highlight a text by each of the entries in turn, and rank the results. -/
def rank (embedding : Embedding) (content : String) :
    List (String × Entry) → Ranking → Traced Ranking
  | [], ranking => pure ranking
  | entry :: rest, ranking => do
    let result ← highlightEntry embedding entry content {}
    rank embedding content rest (ranking.add result)

/-- How embedded languages are highlighted when they may be embedded in each other so deep. At the
limit nothing is looked up any more. -/
def embedding (h : Highlighter) : Nat → Embedding
  | 0 => ⟨h.stepLimit, fun _ _ _ => .fail .tooDeep, fun _ _ => .fail .tooDeep⟩
  | depth + 1 =>
    { stepLimit := h.stepLimit
      fixed := fun name content continuation =>
        match h.registry.find? name with
        | .none => pure .none
        | some entry =>
          some <$> highlightEntry (h.embedding depth) entry content
            { ignoreIllegals := true, continuation := continuation }
      auto := fun names content => do
        let ranking ← rank (h.embedding depth) content (h.entriesAmong names) (.start content)
        return ranking.best }

/-- Highlight a text by a language that need not be registered. -/
def highlightLanguage (h : Highlighter) (language : Language) (content : String)
    (options : Options) : Traced Highlighted :=
  highlightCompiled (h.embedding h.embeddingLimit) language.name language.compile [] content options

/-- Highlight a text by the language registered under a name or alias. -/
def highlightWith (h : Highlighter) (name content : String) (options : Options) :
    Traced Highlighted :=
  match h.registry.find? name with
  | .none => .fail (.unknownLanguage name)
  | some entry => highlightEntry (h.embedding h.embeddingLimit) entry content options

/-- Highlight a text by the best of the named languages, or of all candidates if there are no
names. -/
def highlightAmong (h : Highlighter) (content : String) (names : List String) :
    Traced Detection := do
  let ranking ←
    rank (h.embedding h.embeddingLimit) content (h.entriesAmong names) (.start content)
  return ranking.toDetection

end Highlighter

end LexicalModes
