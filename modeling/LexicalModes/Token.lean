/-!
Tokens: what highlighting makes of a text.

A token is a piece of text, a keyword, or the start or end of a region. `Stream` collects tokens as
they are produced and joins pieces of text that come to stand next to each other, so that no text
token is empty and no two of them are adjacent. `plainText` puts the text back together.
-/

namespace LexicalModes

/-- What a region of the text represents. -/
inductive Scope
  /-- A mode that carries a class name. -/
  | region (className : String)
  /-- The output of an embedded language. -/
  | language (name : String)
  deriving DecidableEq, Repr

/-- The name of the class or language. -/
def Scope.name : Scope → String
  | .region name => name
  | .language name => name

/-- One element of highlighted text. -/
inductive Token
  /-- Text without a class of its own; it belongs to the regions open around it. -/
  | text (content : String)
  /-- A word of the keyword table in force. -/
  | keyword (className content : String)
  /-- The start of a region. -/
  | begins (scope : Scope)
  /-- The end of a region. -/
  | ends (scope : Scope)
  deriving DecidableEq, Repr

/-- The source text a token carries. -/
def Token.content : Token → String
  | .text content => content
  | .keyword _ content => content
  | .begins _ => ""
  | .ends _ => ""

/-- The source text that a list of tokens was made from. -/
def plainText (tokens : List Token) : String := String.join (tokens.map Token.content)

/-- Tokens produced so far, the latest first. -/
structure Stream where
  latest : List Token := []
  deriving DecidableEq, Repr

namespace Stream

/-- No token. -/
def empty : Stream := {}

/-- The tokens in order. -/
def toList (s : Stream) : List Token := s.latest.reverse

/-- Number of tokens. -/
def length (s : Stream) : Nat := s.latest.length

/-- Add a token as it is. -/
def push (s : Stream) (t : Token) : Stream := ⟨t :: s.latest⟩

/-- Add text, joining it to a text token before it. The empty text adds nothing. -/
def pushText (s : Stream) (content : String) : Stream :=
  if content.isEmpty then s
  else
    match s.latest with
    | .text before :: rest => ⟨.text (before ++ content) :: rest⟩
    | _ => s.push (.text content)

/-- Add a token, joining text to a text token before it. -/
def pushJoined (s : Stream) : Token → Stream
  | .text content => s.pushText content
  | t => s.push t

/-- Add tokens as they are. -/
def append (s : Stream) (tokens : List Token) : Stream := tokens.foldl push s

/-- Add tokens, joining text to a text token before it. -/
def appendJoined (s : Stream) (tokens : List Token) : Stream := tokens.foldl pushJoined s

end Stream

end LexicalModes
