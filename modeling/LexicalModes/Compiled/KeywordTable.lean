import LexicalModes.Compiled.Error
import LexicalModes.Unicode.Lowercase

/-!
Keyword tables: the words of a mode with their classes and weights.

A keyword declaration is read as a list of words in order (`Keywords.words`); the table answers for
each lexeme with the last word that has it. In a case insensitive language the lists are lower-cased
before they are split, and words are looked up in lower case.
-/

namespace LexicalModes

open LexicalModes.Unicode

/-- Class and weight of a keyword. -/
structure Keyword where
  className : String
  weight : Relevance
  deriving DecidableEq, Repr

/-- Keywords by lexeme, each lexeme once. -/
structure KeywordTable where
  entries : List (String × Keyword) := []
  deriving DecidableEq, Repr

namespace KeywordTable

/-- The keyword with this lexeme. -/
def lookup (t : KeywordTable) (lexeme : String) : Option Keyword := t.entries.lookup lexeme

/-- Number of lexemes. -/
def size (t : KeywordTable) : Nat := t.entries.length

/-- The entries with this one in the place of the one with its lexeme, or at the end. -/
def putEntry (lexeme : String) (k : Keyword) : List (String × Keyword) → List (String × Keyword)
  | [] => [(lexeme, k)]
  | (other, old) :: rest =>
    if lexeme = other then (lexeme, k) :: rest else (other, old) :: putEntry lexeme k rest

/-- The table with this keyword for this lexeme. -/
def put (t : KeywordTable) (lexeme : String) (k : Keyword) : KeywordTable :=
  ⟨putEntry lexeme k t.entries⟩

end KeywordTable

/-- The words between white space, given the characters of the word being read, the latest
first. -/
def splitWordsFrom (word : List Char) : List Char → List (List Char)
  | [] => if word.isEmpty then [] else [word.reverse]
  | c :: rest =>
    if isWhiteSpace c then
      if word.isEmpty then splitWordsFrom [] rest
      else word.reverse :: splitWordsFrom [] rest
    else splitWordsFrom (c :: word) rest

/-- The words of a text: its longest stretches without white space. -/
def splitWords (text : String) : List String := (splitWordsFrom [] text.toList).map String.ofList

/-- Read a number in the range of weights: digits, after an optional plus sign. -/
def readWeight? (text : List Char) : Option Relevance :=
  let digits := match text with
    | '+' :: rest => rest
    | _ => text
  if digits.isEmpty || !digits.all Char.isDigit then none
  else
    let n := digits.foldl (fun n c => 10 * n + (c.toNat - '0'.toNat)) 0
    if n ≤ Relevance.largest then some n else none

/-- Split a word at its first bar into the lexeme and the weight, which is one if nothing follows
the bar or there is none. -/
def readWord? (word : String) : Option (String × Relevance) :=
  let chars := word.toList
  let lexeme := String.ofList (chars.takeWhile (· != '|'))
  match chars.dropWhile (· != '|') with
  | [] => some (lexeme, 1)
  | [_] => some (lexeme, 1)
  | _ :: suffix => (readWeight? suffix).map (lexeme, ·)

namespace Keywords

/-- The word lists with their classes, in ascending order of the classes. -/
def lists : Keywords → List (String × String)
  | .plain words => [(plainClass, words)]
  | .classes lists => lists.entries

/-- All words with their classes, in order. -/
def words (keywords : Keywords) (caseInsensitive : Bool) : List (String × String) :=
  keywords.lists.flatMap fun (className, list) =>
    (splitWords (if caseInsensitive then lowercase list else list)).map (className, ·)

/-- Add words to a table, later ones winning. -/
def addWords (table : KeywordTable) : List (String × String) → Except CompileError KeywordTable
  | [] => .ok table
  | (className, word) :: rest =>
    match readWord? word with
    | some (lexeme, weight) => addWords (table.put lexeme ⟨className, weight⟩) rest
    | none => .error (.keywordWeight word)

/-- The table of a declaration. -/
def table (keywords : Keywords) (caseInsensitive : Bool) : Except CompileError KeywordTable :=
  addWords {} (keywords.words caseInsensitive)

end Keywords

end LexicalModes
