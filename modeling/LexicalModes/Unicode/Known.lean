import LexicalModes.Unicode.Property

/-!
Character properties as patterns know them.

Patterns go by tables that are a little older than those of the other modules: to them the `latest`
characters are unassigned.
-/

namespace LexicalModes.Unicode.Known

/-- Characters whose category was another when they were last looked at, with that category. -/
def recategorised : List (Nat × Category) := [(0x295, .ll)]

/-- Characters that patterns take to have one of these general categories. -/
def categories (members : List Category) : CharSet :=
  let now := ofCategories members
  let assigned := if members.contains .cn then now.union latest else now.diff latest
  recategorised.foldl (fun s (code, category) =>
    let only := CharSet.ofRanges [(code, code)]
    if members.contains category then s.union only else s.diff only) assigned

/-- Letters. -/
def letter : List Category := [.lu, .ll, .lt, .lm, .lo]

/-- Marks. -/
def mark : List Category := [.mn, .mc, .me]

/-- Alphabetic characters. -/
def alphabetic : CharSet := (categories (.nl :: letter)).union (otherAlphabetic.diff latest)

/-- Lower case characters. -/
def lowercase : CharSet := (categories [.ll]).union (otherLowercase.diff latest)

/-- Upper case characters. -/
def uppercase : CharSet := (categories [.lu]).union otherUppercase

/-- Decimal digits of any script. -/
def digit : CharSet := categories [.nd]

/-- Word characters: alphabetic characters, marks, decimal digits, connecting punctuation and the
two joiners. -/
def word : CharSet :=
  .unionAll [alphabetic, categories (.nd :: .pc :: mark), joinControl]

/-- Characters that may start an identifier. -/
def idStart : CharSet :=
  (((categories (.nl :: letter)).union otherIdStart).diff patternSyntax).diff patternWhiteSpace

/-- Characters that may stand in an identifier. -/
def idContinue : CharSet :=
  ((CharSet.unionAll [idStart, categories [.mn, .mc, .nd, .pc], otherIdContinue]).diff
    patternSyntax).diff patternWhiteSpace

/-- Characters that extend the one before. -/
def graphemeExtend : CharSet := (categories [.me, .mn]).union otherGraphemeExtend

/-- Invisible characters that may be ignored where they are not supported. -/
def defaultIgnorable : CharSet :=
  (CharSet.unionAll [otherDefaultIgnorable, categories [.cf], variationSelector]).diff
    (.unionAll [whiteSpace, .ofRanges [(0xFFF9, 0xFFFB), (0x13430, 0x1343F)],
      prependedConcatenationMark])

/-- Whether the character is a word character. -/
def isWord (c : Char) : Bool :=
  if c.toNat < 128 then c.isAlphanum || c == '_' else word.contains c

end LexicalModes.Unicode.Known
