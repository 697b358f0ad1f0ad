/-!
Joining patterns that were written independently.

When patterns are joined into one, the numbers of their references have to grow by the number of
groups in the patterns before, or a reference would point at a group of another pattern. `compose`
splits each pattern into `Piece`s: bracketed classes and escapes are copied, a bare parenthesis
opens a group, and a reference is renumbered.
-/

namespace LexicalModes

/-- The pieces of a pattern that matter when it is joined with others. -/
inductive Piece
  /-- A bare parenthesis, which opens a group. -/
  | opening
  /-- A reference to a group by number, as written after the backslash. -/
  | reference (digits : List Char)
  /-- A class, an escape, a parenthesis with a question mark, or any other character. -/
  | copied (chars : List Char)
  deriving DecidableEq, Repr

namespace Piece

/-- Numbers of groups are words of 64 bits: a reference whose number is out of range is copied
unchanged, and renumbering counts modulo this bound. -/
def referenceBound : Nat := 0x10000000000000000

/-- The number that digits stand for. -/
def number (digits : List Char) : Nat :=
  digits.foldl (fun n c => 10 * n + (c.toNat - '0'.toNat)) 0

/-- The text of a piece when so many groups come before its pattern. -/
def shifted (offset : Nat) : Piece → List Char
  | .opening => ['(']
  | .reference digits =>
    if number digits < referenceBound then
      '\\' :: ((number digits + offset) % referenceBound).repr.toList
    else '\\' :: digits
  | .copied chars => chars

/-- Whether a piece opens a group. -/
def isOpening : Piece → Bool
  | .opening => true
  | _ => false

end Piece

/-- Number of characters of a bracketed class after its opening bracket, up to and with the bracket
that closes it; a backslash takes the character after it along unless that is a line feed. -/
def classLength? : List Char → Option Nat
  | [] => none
  | ']' :: _ => some 1
  | '\\' :: c :: rest => if c = '\n' then none else (classLength? rest).map (· + 2)
  | ['\\'] => none
  | _ :: rest => (classLength? rest).map (· + 1)

/-- The first piece of a pattern and what comes after it. -/
def nextPiece? : List Char → Option (Piece × List Char)
  | [] => none
  | '[' :: rest =>
    match classLength? rest with
    | some n => some (.copied ('[' :: rest.take n), rest.drop n)
    | none => some (.copied ['['], rest)
  | '(' :: '?' :: rest => some (.copied ['(', '?'], rest)
  | '(' :: rest => some (.opening, rest)
  | '\\' :: c :: rest =>
    if '1' ≤ c && c ≤ '9' then
      some (.reference (c :: rest.takeWhile Char.isDigit), rest.dropWhile Char.isDigit)
    else if c = '\n' then some (.copied ['\\'], c :: rest)
    else some (.copied ['\\', c], rest)
  | c :: rest => some (.copied [c], rest)

/-- The pieces of a pattern, at most so many. -/
def piecesUpTo : Nat → List Char → List Piece
  | 0, _ => []
  | fuel + 1, text =>
    match nextPiece? text with
    | some (piece, rest) => piece :: piecesUpTo fuel rest
    | none => []

/-- The pieces of a pattern. Each takes at least one character. -/
def pieces (pattern : String) : List Piece :=
  let chars := pattern.toList
  piecesUpTo chars.length chars

/-- Number of groups that a pattern is taken to have. -/
def groupCount (pattern : String) : Nat := (pieces pattern).countP Piece.isOpening

/-- The text of a pattern when so many groups come before it. -/
def shiftReferences (offset : Nat) (pattern : String) : String :=
  String.ofList ((pieces pattern).flatMap (Piece.shifted offset))

/-- The patterns with their references renumbered, when so many groups come before the first. -/
def shiftAll : Nat → List String → List String
  | _, [] => []
  | offset, p :: rest => shiftReferences offset p :: shiftAll (offset + groupCount p) rest

/-- Join patterns with a separator so that every reference stays inside its own pattern. -/
def compose (patterns : List String) (separator : String) : String :=
  separator.intercalate (shiftAll 0 patterns)

end LexicalModes
