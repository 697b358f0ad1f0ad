import LexicalModes.Unicode.Category
import LexicalModes.Unicode.Binary

/-!
Character properties used by keyword lists, group names and lower-casing.

Each property follows from general categories and a listed set of further characters. The tests are
settled for the first 128 characters directly, which gives the same answers as the sets would and
spares the common case a search.
-/

namespace LexicalModes.Unicode

/-- Characters whose general category is one of these. -/
def ofCategories (members : List Category) : CharSet :=
  .ofLabels members.contains Category.runs

/-- Whether the character is a blank, a tabulator, a line end or a separator. -/
def isWhiteSpace (c : Char) : Bool :=
  if c.toNat < 128 then c.toNat == 32 || (9 ≤ c.toNat && c.toNat ≤ 13) else whiteSpace.contains c

/-- Alphabetic characters, and numbers of any kind. -/
def alphanumeric : CharSet :=
  (ofCategories [.lu, .ll, .lt, .lm, .lo, .nd, .nl, .no]).union otherAlphabetic

/-- Whether the character is alphabetic or a number of any kind. -/
def isAlphanumeric (c : Char) : Bool :=
  if c.toNat < 128 then c.isAlphanum else alphanumeric.contains c

/-- Characters that have case: upper, lower and title case letters and letter-like symbols. -/
def casedSet : CharSet :=
  ((ofCategories [.lu, .ll, .lt]).union otherLowercase).union otherUppercase

/-- Whether the character has case. -/
def isCased (c : Char) : Bool := if c.toNat < 128 then c.isAlpha else casedSet.contains c

/-- Characters that are looked through when the neighbours of a letter decide its case mapping. -/
def caseIgnorableSet : CharSet := (ofCategories [.mn, .me, .cf, .lm, .sk]).union midWord

/-- Whether the character is looked through when the neighbours of a letter decide its case
mapping. -/
def isCaseIgnorable (c : Char) : Bool := caseIgnorableSet.contains c

end LexicalModes.Unicode
