import LexicalModes.Highlight.Classify
import LexicalModes.Highlight.Scan
import LexicalModes.Highlight.Traced

/-!
Turning the events of a scan into tokens.

Region events become tokens, scores are added up, and chunks are searched for keywords or handed to
an embedded language. Chunks of a fixed embedded language continue each other: where one finished is
kept under the language's name, as written in the mode, until the next.
-/

namespace LexicalModes

/-- The outcome of highlighting a text. -/
structure Highlighted where
  /-- The language used; none if the text was left as it is. -/
  language : Option String
  relevance : Relevance
  tokens : List Token
  /-- Where the text finished. -/
  continuation : Option Continuation

namespace Highlighted

/-- The text left as it is, which scores nothing. -/
def verbatim (content : String) : Highlighted :=
  ⟨none, 0, (Stream.empty.pushText content).toList, none⟩

/-- The source text. -/
def text (h : Highlighted) : String := plainText h.tokens

end Highlighted

/-- What highlighting by a grammar depends on besides the grammar: how many steps a scan may take,
and how chunks are highlighted by other languages. -/
structure Embedding where
  stepLimit : StepLimit
  /-- Highlight by the named language, continuing an earlier chunk; nothing if there is no such
  language. -/
  fixed : String → String → Option Continuation → Traced (Option Highlighted)
  /-- Highlight by the best of the named languages. -/
  auto : List String → String → Traced Highlighted

/-- The state of turning events into tokens. -/
structure Emission where
  stream : Stream := {}
  relevance : Relevance := 0
  /-- Where the last chunk of each fixed embedded language finished. -/
  threads : List (String × Continuation) := []

namespace Emission

/-- Add to the relevance. -/
def score (e : Emission) (weight : Relevance) : Emission :=
  { e with relevance := Relevance.add e.relevance weight }

/-- Keep where a chunk of a language finished, or forget the earlier place. -/
def keepThread (e : Emission) (name : String) (continuation : Option Continuation) : Emission :=
  let others := e.threads.filter (·.1 != name)
  match continuation with
  | some c => { e with threads := (name, c) :: others }
  | none => { e with threads := others }

/-- Add a chunk that another language has highlighted. A container without relevance keeps the
score out; a chunk that was left as it is joins the text around it. -/
def addEmbedded (e : Emission) (container : CompiledMode) (h : Highlighted) : Emission :=
  let e := if container.relevance > 0 then e.score h.relevance else e
  match h.language with
  | some name =>
    { e with
      stream := ((e.stream.push (.begins (.language name))).append h.tokens).push
        (.ends (.language name)) }
  | none => { e with stream := e.stream.appendJoined h.tokens }

/-- Add a chunk of a mode. -/
def addChunk (g : CompiledGrammar) (embedding : Embedding) (e : Emission) (mode : CompiledMode)
    (content : String) : Traced Emission :=
  match mode.subLanguage with
  | none =>
    match classify mode content g.caseInsensitive e.stream with
    | (stream, .ok relevance) => pure ({ e with stream := stream }.score relevance)
    | (_, .error e) => .fail (.ofMatchError e)
  | some (.fixed name) => do
    match ← embedding.fixed name content (e.threads.lookup name) with
    | none => return { e with stream := e.stream.pushText content }
    | some h => return (e.keepThread name h.continuation).addEmbedded mode h
  | some (.auto names) => do
    return e.addEmbedded mode (← embedding.auto names content)

/-- Add what an event stands for. -/
def add (g : CompiledGrammar) (embedding : Embedding) (e : Emission) : Event → Traced Emission
  | .begins className => pure { e with stream := e.stream.push (.begins (.region className)) }
  | .ends className => pure { e with stream := e.stream.push (.ends (.region className)) }
  | .chunk mode content => e.addChunk g embedding (g.mode mode) content
  | .score weight => pure (e.score weight)

/-- Add what events stand for, in order. -/
def addAll (g : CompiledGrammar) (embedding : Embedding) :
    Emission → List Event → Traced Emission
  | e, [] => pure e
  | e, event :: rest => do
    let e ← e.add g embedding event
    addAll g embedding e rest

end Emission

end LexicalModes
