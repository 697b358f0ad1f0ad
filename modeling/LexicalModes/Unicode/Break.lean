import LexicalModes.Unicode.Known
import LexicalModes.Unicode.Script

/-!
Break classes: the parts that characters play where a text is divided into clusters, which a reader
sees as one character each, into words and into sentences.

A class follows from other properties and from a few characters listed with it. A character plays at
most one part in each of the three divisions, so a class leaves out what an earlier one has taken.
-/

namespace LexicalModes.Unicode.Break

open LexicalModes.Unicode.Known

/-- The characters with these code points. -/
def codes (members : List Nat) : CharSet := .ofRanges (members.map fun code => (code, code))

/-- The end of a line that returns to its start. -/
def carriageReturn : CharSet := codes [0xD]

/-- The end of a line that moves to the next one. -/
def lineFeed : CharSet := codes [0xA]

/-- The joiner, which makes one cluster of the characters around it. -/
def joiner : CharSet := codes [0x200D]

namespace Cluster

/-- Marks that belong to the cluster before them. -/
def extend : CharSet := (graphemeExtend.union emojiModifier).diff joiner

/-- Signs that belong to the cluster after them. -/
def prepend : CharSet :=
  prependedConcatenationMark.union
    (.ofRanges [(0xD4E, 0xD4E), (0x111C2, 0x111C3), (0x113D1, 0x113D1), (0x1193F, 0x1193F),
      (0x11941, 0x11941), (0x11A3A, 0x11A3A), (0x11A84, 0x11A89), (0x11D46, 0x11D46),
      (0x11F02, 0x11F02)])

/-- Characters that are no part of a cluster. -/
def control : CharSet :=
  ((categories [.cc, .cf, .zl, .zp]).union (defaultIgnorable.inter (categories [.cn]))).diff
    (.unionAll [carriageReturn, lineFeed, joiner, extend, prepend])

/-- Spacing marks that are clusters by themselves. -/
def separateMarks : CharSet :=
  .ofRanges [(0x102B, 0x102C), (0x1038, 0x1038), (0x1062, 0x1064), (0x1067, 0x106D),
    (0x1083, 0x1083), (0x1087, 0x108C), (0x108F, 0x108F), (0x109A, 0x109C), (0x1A61, 0x1A61),
    (0x1A63, 0x1A64), (0xAA7B, 0xAA7B), (0xAA7D, 0xAA7D), (0x11720, 0x11721)]

/-- Marks with a width of their own that belong to the cluster before them. -/
def spacingMark : CharSet :=
  ((categories [.mc]).union (codes [0xE33, 0xEB3])).diff (extend.union separateMarks)

/-- Consonants that begin a syllable. -/
def lead : CharSet := .ofRanges [(0x1100, 0x115F), (0xA960, 0xA97C)]

/-- Vowels of a syllable. -/
def vowel : CharSet :=
  .ofRanges [(0x1160, 0x11A7), (0xD7B0, 0xD7C6), (0x16D63, 0x16D63), (0x16D67, 0x16D6A)]

/-- Consonants that end a syllable. -/
def trail : CharSet := .ofRanges [(0x11A8, 0x11FF), (0xD7CB, 0xD7FB)]

/-- Syllables without a last consonant: the first of every 28. -/
def leadVowel : CharSet := codes ((List.range 399).map fun i => 0xAC00 + 28 * i)

/-- Syllables with a last consonant. -/
def leadVowelTrail : CharSet := (CharSet.ofRanges [(0xAC00, 0xD7A3)]).diff leadVowel

end Cluster

/-- Digits, the decimal separator among them, and the marks written before digits. The mark of an
abbreviation goes with letters instead. -/
def numeric : CharSet :=
  .unionAll [digit, codes [0x66B], prependedConcatenationMark.diff (codes [0x70F])]

namespace Word

/-- Marks that belong to the character before them. -/
def extend : CharSet :=
  (CharSet.unionAll [graphemeExtend, categories [.mc], emojiModifier]).diff joiner

/-- Invisible characters that have no part in the division. -/
def format : CharSet :=
  (categories [.cf]).diff (.unionAll [codes [0x200B], joiner, extend, Cluster.prepend])

/-- Ends of lines other than the two most common. -/
def newline : CharSet := codes [0xB, 0xC, 0x85, 0x2028, 0x2029]

/-- Letters of the script, and signs shared with a sister script. -/
def katakana : CharSet :=
  (Script.members "Kana").union
    (.ofRanges [(0x3031, 0x3035), (0x309B, 0x309C), (0x30A0, 0x30A0), (0x30FC, 0x30FC),
      (0xFF70, 0xFF70)])

/-- Letters in words that a quotation mark may stand in. -/
def hebrew : CharSet := (Script.members "Hebr").inter (categories [.lo])

/-- Scripts that words are not set apart in, or are so by no visible sign. -/
def unspaced : CharSet :=
  .unionAll (["Hira", "Thai", "Laoo", "Mymr", "Khmr", "Tale", "Talu", "Lana", "Tavt", "Ahom"].map
    Script.members)

/-- Signs that stand in words like letters. -/
def letterlike : CharSet :=
  .ofRanges [(0x2C2, 0x2C5), (0x2D2, 0x2D7), (0x2DE, 0x2DF), (0x2E5, 0x2EB), (0x2ED, 0x2ED),
    (0x2EF, 0x2FF), (0x55A, 0x55C), (0x55E, 0x55E), (0x58A, 0x58A), (0x5F3, 0x5F3), (0x70F, 0x70F),
    (0xA708, 0xA716), (0xA720, 0xA721), (0xA789, 0xA78A), (0xAB5B, 0xAB5B)]

/-- Letters of words. -/
def letter : CharSet :=
  (alphabetic.union letterlike).diff
    (.unionAll [ideographic, katakana, unspaced, extend, hebrew])

/-- Punctuation that may stand between two letters. -/
def midLetter : CharSet :=
  codes [0x3A, 0xB7, 0x387, 0x55F, 0x5F4, 0x2027, 0xFE13, 0xFE55, 0xFF1A]

/-- Punctuation that may stand between two digits. -/
def midNumber : CharSet :=
  codes [0x2C, 0x3B, 0x37E, 0x589, 0x60C, 0x60D, 0x66C, 0x7F8, 0x2044, 0xFE10, 0xFE14, 0xFE50,
    0xFE54, 0xFF0C, 0xFF1B]

/-- Punctuation that may stand between two letters or two digits. -/
def midEither : CharSet := codes [0x2E, 0x2018, 0x2019, 0x2024, 0xFE52, 0xFF07, 0xFF0E]

/-- Characters that connect letters and digits into one word. -/
def connector : CharSet := (categories [.pc]).union (codes [0x202F])

/-- Spaces that a line may be broken at. -/
def space : CharSet := (categories [.zs]).diff (codes [0xA0, 0x2007, 0x202F])

end Word

namespace Sentence

/-- Marks that belong to the character before them. -/
def extend : CharSet := .unionAll [graphemeExtend, categories [.mc], joiner]

/-- Characters that separate paragraphs. -/
def separator : CharSet := codes [0x85, 0x2028, 0x2029]

/-- Invisible characters that have no part in the division. -/
def format : CharSet := (categories [.cf]).diff (extend.union Cluster.prepend)

/-- White space inside of a paragraph. -/
def space : CharSet := whiteSpace.diff (.unionAll [separator, carriageReturn, lineFeed])

/-- Small letters, save those of a script that seldom uses capitals. -/
def lower : CharSet :=
  Known.lowercase.diff (graphemeExtend.union (.ofRanges [(0x10D0, 0x10FA), (0x10FD, 0x10FF)]))

/-- Capitals, save those of a script that begins no sentence with them. -/
def upper : CharSet :=
  ((categories [.lt]).union Known.uppercase).diff (.ofRanges [(0x1C90, 0x1CBA), (0x1CBD, 0x1CBF)])

/-- Letters without case. -/
def letter : CharSet :=
  (alphabetic.union (codes [0x5F3, 0x70F])).diff (.unionAll [lower, upper, extend])

/-- Digits and the separators among them. -/
def numeric : CharSet := Break.numeric.union (codes [0x66C])

/-- Full stops, which may end an abbreviation as well as a sentence. -/
def abbreviation : CharSet := codes [0x2E, 0x2024, 0xFE52, 0xFF0E]

/-- Punctuation that ends a sentence. -/
def terminal : CharSet := sentenceTerminal.diff abbreviation

/-- Brackets and quotation marks. -/
def close : CharSet :=
  ((categories [.ps, .pe, .pi, .pf]).union
    (.ofRanges [(0x22, 0x22), (0x27, 0x27), (0x275B, 0x2760), (0x2E00, 0x2E01), (0x2E06, 0x2E08),
      (0x2E0B, 0x2E0B), (0x1F676, 0x1F678)])).diff (abbreviation.union terminal)

/-- Punctuation after which the sentence goes on. -/
def continuer : CharSet :=
  codes [0x2C, 0x2D, 0x3A, 0x3B, 0x37E, 0x55D, 0x60C, 0x60D, 0x7F8, 0x1802, 0x1808, 0x2013, 0x2014,
    0x3001, 0xFE10, 0xFE11, 0xFE13, 0xFE14, 0xFE31, 0xFE32, 0xFE50, 0xFE51, 0xFE54, 0xFE55, 0xFE58,
    0xFE63, 0xFF0C, 0xFF0D, 0xFF1A, 0xFF1B, 0xFF64]

end Sentence

end LexicalModes.Unicode.Break
