import LexicalModes.Grammar

/-!
Building blocks that many grammars share: identifiers, numbers, strings and comments.

Blocks without modes of their own inside are modes; the others are functions that add what they need
to a grammar and return the number of the mode that was asked for.
-/

namespace LexicalModes.Blocks

/-- An identifier. -/
def identifier : String := "[a-zA-Z]\\w*"

/-- An identifier that may start with an underscore. -/
def underscoreIdentifier : String := "[a-zA-Z_]\\w*"

/-- A decimal number. -/
def numberPattern : String := "\\b\\d+(\\.\\d+)?"

/-- A number in hexadecimal, integer, decimal or exponent form. -/
def extendedNumberPattern : String :=
  "(-?)(\\b0[xX][a-fA-F0-9]+|(\\b\\d+(\\.\\d*)?|\\.\\d+)([eE][-+]?\\d+)?)"

/-- A number in binary form. -/
def binaryNumberPattern : String := "\\b(0b[01]+)"

/-- Units of measure that may follow a number in style sheets. -/
def styleUnits : String :=
  "%|em|ex|ch|rem|vw|vh|vmin|vmax|cm|mm|in|pt|pc|px|deg|grad|rad|turn|s|ms|Hz|kHz|dpi|dpcm|dppx"

/-- Operators after which a slash starts a regular expression and is no division. -/
def expressionStarters : String :=
  "!|!=|!==|%|%=|&|&&|&=|\\*|\\*=|\\+|\\+=|,|-|-=|/=|/|:|;|<<|<<=|<=|<|===|==|=|" ++
    ">>>=|>>=|>=|>>>|>>|>|\\?|\\[|\\\x7b|\\(|\\^|\\^=|\\||\\|=|\\|\\||~"

/-- A backslash and the character after it. -/
def backslashEscape : Mode := { beginPattern := some "\\\\[\\s\\S]", relevance := some 0 }

/-- Common English words, so that prose in comments is not mistaken for code. -/
def phrasalWords : Mode :=
  { beginPattern := some ("\\b(a|an|the|are|I'm|isn't|don't|doesn't|won't|but|just|should|" ++
      "pretty|simply|enough|gonna|going|wtf|so|such|will|you|your|they|like|more)\\b") }

/-- A number in decimal form. -/
def number : Mode :=
  { className := some "number", beginPattern := some numberPattern, relevance := some 0 }

/-- A number in any of the common forms. -/
def extendedNumber : Mode :=
  { className := some "number", beginPattern := some extendedNumberPattern, relevance := some 0 }

/-- A number in binary form. -/
def binaryNumber : Mode :=
  { className := some "number", beginPattern := some binaryNumberPattern, relevance := some 0 }

/-- A number with an optional unit of measure. -/
def styleNumber : Mode :=
  { className := some "number"
    beginPattern := some (numberPattern ++ "(" ++ styleUnits ++ ")?")
    relevance := some 0 }

/-- A name in a heading or a definition. -/
def title : Mode :=
  { className := some "title", beginPattern := some identifier, relevance := some 0 }

/-- A name in a heading or a definition that may start with an underscore. -/
def underscoreTitle : Mode :=
  { className := some "title", beginPattern := some underscoreIdentifier, relevance := some 0 }

/-- A name after a dot, so that names of methods are not taken for keywords. -/
def methodGuard : Mode :=
  { beginPattern := some ("\\.\\s*" ++ underscoreIdentifier), relevance := some 0 }

/-- A comment between two patterns, with annotations such as `TODO:` marked inside it. -/
def comment (beginning ending : String) (g : Grammar) : Grammar × ModeId :=
  let (g, phrasal) := g.add phrasalWords
  let (g, annotation) := g.add
    { className := some "doctag"
      beginPattern := some "(?:TODO|FIXME|NOTE|BUG|XXX):"
      relevance := some 0 }
  g.add
    { className := some "comment"
      beginPattern := some beginning
      endPattern := some ending
      contains := [.mode phrasal, .mode annotation] }

/-- A comment from two slashes to the end of the line. -/
def slashComment : Grammar → Grammar × ModeId := comment "//" "$"

/-- A comment between slashes with stars. -/
def blockComment : Grammar → Grammar × ModeId := comment "/\\*" "\\*/"

/-- A comment from a number sign to the end of the line. -/
def hashComment : Grammar → Grammar × ModeId := comment "#" "$"

/-- A text on one line between two delimiters, with escapes in it. -/
def quoted (delimiter : String) (g : Grammar) : Grammar × ModeId :=
  let (g, escape) := g.add backslashEscape
  g.add
    { className := some "string"
      beginPattern := some delimiter
      endPattern := some delimiter
      illegal := some "\\n"
      contains := [.mode escape] }

/-- A text between apostrophes. -/
def apostropheString : Grammar → Grammar × ModeId := quoted "'"

/-- A text between quotation marks. -/
def quotationString : Grammar → Grammar × ModeId := quoted "\""

/-- A regular expression between slashes, with the letters after it. -/
def slashedExpression (g : Grammar) : Grammar × ModeId :=
  let (g, escape) := g.add backslashEscape
  let (g, classEscape) := g.add backslashEscape
  let (g, bracketed) := g.add
    { beginPattern := some "\\["
      endPattern := some "\\]"
      relevance := some 0
      contains := [.mode classEscape] }
  g.add
    { className := some "regexp"
      beginPattern := some "/"
      endPattern := some "/[gimuy]*"
      illegal := some "\\n"
      contains := [.mode escape, .mode bracketed] }

end LexicalModes.Blocks
