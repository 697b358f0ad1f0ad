import LexicalModes.Compiled.Mode
import LexicalModes.Token

/-!
Finding the keywords of a text.

The text is searched for successive lexemes (`lexemesFrom`); those in the keyword table become
keyword tokens, and all else stays text. Lexemes that match the empty text are passed over.
-/

namespace LexicalModes

open Pattern

/-- The non-empty matches of a pattern one after another, from a position on, and the error that
ended them early, if one did. After an empty match the search goes on one character further. No
match starts before the end of the `last` one. -/
def lexemesFrom (p : Pattern) (text : Text) :
    Nat → Nat → Nat → List (Nat × Nat) × Option MatchError
  | 0, _, _ => ([], none)
  | fuel + 1, last, position =>
    match p.findAfter? text last position with
    | .error e => ([], some e)
    | .ok none => ([], none)
    | .ok (some span) =>
      if span.start = span.stop then lexemesFrom p text fuel last (span.stop + 1)
      else
        let (rest, fault) := lexemesFrom p text fuel span.stop span.stop
        ((span.start, span.stop) :: rest, fault)

/-- The non-empty matches of a pattern one after another. Each step moves the search on or, right
after one that found an empty match, the end of the last lexeme; this bounds their number. -/
def lexemesIn (p : Pattern) (text : Text) : List (Nat × Nat) × Option MatchError :=
  lexemesFrom p text (2 * text.size + 4) 0 0

/-- Tokens added so far and the sum of the weights of the keywords among them. -/
structure Classified where
  stream : Stream
  relevance : Relevance

/-- Add the text before a lexeme and the lexeme itself, as a keyword if it is one. -/
def Classified.addLexeme (table : KeywordTable) (caseInsensitive : Bool) (text : Text)
    (c : Classified) (last : Nat) (lexeme : Nat × Nat) : Classified :=
  let stream := c.stream.pushText (text.slice last lexeme.1)
  let word := text.slice lexeme.1 lexeme.2
  match table.lookup (if caseInsensitive then Unicode.lowercase word else word) with
  | some k => ⟨stream.push (.keyword k.className word), Relevance.add c.relevance k.weight⟩
  | none => ⟨stream.pushText word, c.relevance⟩

/-- Add lexemes in order, and return the end of the last one. -/
def Classified.addLexemes (table : KeywordTable) (caseInsensitive : Bool) (text : Text) :
    Classified → Nat → List (Nat × Nat) → Classified × Nat
  | c, last, [] => (c, last)
  | c, last, lexeme :: rest =>
    addLexemes table caseInsensitive text
      (c.addLexeme table caseInsensitive text last lexeme) lexeme.2 rest

/-- Add a text of the mode to the tokens, with its keywords marked. The relevance is missing if the
search for lexemes was given up; the tokens up to there are kept. -/
def classify (mode : CompiledMode) (content : String) (caseInsensitive : Bool) (stream : Stream) :
    Stream × Except MatchError Relevance :=
  match mode.keywords with
  | none => (stream.pushText content, .ok 0)
  | some table =>
    let text := Text.ofString content
    let (lexemes, fault) := lexemesIn mode.lexemes text
    let (c, last) := Classified.addLexemes table caseInsensitive text ⟨stream, 0⟩ 0 lexemes
    match fault with
    | some e => (c.stream, .error e)
    | none => (c.stream.pushText (text.slice last text.size), .ok c.relevance)

end LexicalModes
