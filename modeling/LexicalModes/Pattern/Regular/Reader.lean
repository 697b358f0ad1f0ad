import LexicalModes.Pattern.Regular
import LexicalModes.Pattern.Regular.Class
import LexicalModes.Pattern.Cursor

/-!
Reading the plain notation.

The text is a choice of sequences of pieces, each of which may be repeated. Flags hold from where
they are set to the end of the group they are set in. Along with the piece, the depth of the tree it
makes is measured: groups, repeats, sequences and choices of several members, and classes each add a
level, and a text that is nested too deep is refused.
-/

namespace LexicalModes.Pattern

open Unicode

/-- How deep a text of the plain notation may be nested. -/
def plainDepthLimit : Nat := 250

/-- Largest number of times that a piece may be asked to repeat. -/
def plainRepeatLimit : Nat := 0xFFFFFFFF

/-- The state of reading the plain notation. -/
structure PlainCursor where
  rest : List Char
  flags : Flags := {}
  /-- Number of groups opened so far. -/
  groups : Nat := 0

namespace PlainCursor

/-- Move on to the given rest of the text. -/
def moveTo (cursor : PlainCursor) (rest : List Char) : PlainCursor := { cursor with rest := rest }

end PlainCursor

/-- A piece with the depth of its tree. -/
structure Piece where
  tree : Regular
  depth : Nat

namespace Piece

/-- A piece that holds no other. -/
def leaf (tree : Regular) : Piece := ⟨tree, 0⟩

/-- The depth of the deepest piece. -/
def deepest (pieces : List Piece) : Nat := pieces.foldl (fun d p => max d p.depth) 0

/-- Pieces one after another; several of them make a level of their own. -/
def ofParts (pieces : List Piece) : Piece :=
  ⟨.ofParts (pieces.map (·.tree)), if pieces.length ≤ 1 then deepest pieces else deepest pieces + 1⟩

/-- A choice of pieces, which makes a level of its own if there are several. -/
def ofBranches (pieces : List Piece) : Piece :=
  ⟨.ofBranches (pieces.map (·.tree)),
    if pieces.length ≤ 1 then deepest pieces else deepest pieces + 1⟩

end Piece

/-- Skip white space. -/
def skipBlanks (text : List Char) : List Char := text.dropWhile isWhiteSpace

/-- Read a number of rounds with white space around it. -/
def readRounds? (text : List Char) : Option (Nat × List Char) := do
  let (n, rest) ← readNat? (skipBlanks text)
  if n ≤ plainRepeatLimit then return (n, skipBlanks rest) else none

/-- Read the bounds of a repeat whose opening brace has been read. They must be in order. -/
def readPlainBounds? (text : List Char) : Option (Nat × Option Nat × List Char) := do
  let (least, rest) ← readRounds? text
  match rest with
  | '\x7d' :: rest => return (least, some least, rest)
  | ',' :: '\x7d' :: rest => return (least, none, rest)
  | ',' :: rest =>
    match ← readRounds? rest with
    | (most, '\x7d' :: rest) => if least ≤ most then return (least, some most, rest) else none
    | _ => none
  | _ => none

/-- Read the bounds of a repeat at the front. No repeat there is a success with nothing read; bounds
that make no sense are a failure. -/
def readPlainRepeat? (text : List Char) : Option (Option (Nat × Option Nat × List Char)) :=
  match text with
  | '?' :: rest => some (some (0, some 1, rest))
  | '*' :: rest => some (some (0, none, rest))
  | '+' :: rest => some (some (1, none, rest))
  | '\x7b' :: rest => (readPlainBounds? rest).map some
  | _ => some none

/-- Read the repeats that follow a piece, each of all before it. -/
def readPlainRepeats : Nat → Piece → PlainCursor → Option (Piece × PlainCursor)
  | 0, _, _ => none
  | fuel + 1, piece, cursor => do
    match ← readPlainRepeat? cursor.rest with
    | none => return (piece, cursor)
    | some (least, most, rest) =>
      let (lazy, rest) := match rest with
        | '?' :: rest => (true, rest)
        | _ => (false, rest)
      readPlainRepeats fuel
        ⟨.repeated piece.tree least most (lazy == cursor.flags.swapGreed), piece.depth + 1⟩
        (cursor.moveTo rest)

/-- Read flags up to the mark that ends them, which is returned with what follows. -/
def readPlainFlags? (flags : Flags) (clear : Bool) : List Char → Option (Flags × Char × List Char)
  | [] => none
  | ')' :: rest => some (flags, ')', rest)
  | ':' :: rest => some (flags, ':', rest)
  | '-' :: rest => if clear then none else readPlainFlags? flags true rest
  | c :: rest => do readPlainFlags? (← flags.update? clear c) clear rest

/-- Read a piece that is no group. -/
def readPlainAtom? (fuel : Nat) (cursor : PlainCursor) : Option (Piece × PlainCursor) :=
  let caseless := cursor.flags.caseless
  match cursor.rest with
  | [] => none
  | '[' :: rest => do
    let (members, rest) ← readClass caseless fuel rest
    return (⟨.chars members.set, members.depth⟩, cursor.moveTo rest)
  | '\\' :: rest => do
    let (atom, rest) ← readPlainEscape? caseless rest
    let set := match atom with
      | .char c => (CharSet.single c).foldIf caseless
      | .set members => members
    return (.leaf (.chars set), cursor.moveTo rest)
  | '.' :: rest =>
    let set := if cursor.flags.dotAll then CharSet.all else (CharSet.single '\n').compl
    some (.leaf (.chars set), cursor.moveTo rest)
  | '^' :: rest =>
    some (.leaf (.assertion (if cursor.flags.multiline then .lineStart else .textStart)),
      cursor.moveTo rest)
  | '$' :: rest =>
    some (.leaf (.assertion (if cursor.flags.multiline then .lineEnd else .textEnd)),
      cursor.moveTo rest)
  | c :: rest =>
    if c == '?' || c == '*' || c == '+' || c == '\x7b' then none
    else some (.leaf (.chars ((CharSet.single c).foldIf caseless)), cursor.moveTo rest)

/-- What an opening parenthesis and the marks after it start. -/
inductive PlainOpening
  /-- Flags that hold from here on, which are complete. -/
  | flags
  /-- A group that is not remembered. -/
  | unnumbered
  /-- A group that is remembered under a number. -/
  | numbered (index : Nat)

/-- The piece made of an opening and the body after it. -/
def PlainOpening.close (opening : PlainOpening) (body : Regular) : Regular :=
  match opening with
  | .numbered index => .group index body
  | _ => body

/-- Read what follows an opening parenthesis. -/
def readPlainOpening? (cursor : PlainCursor) : Option (PlainOpening × PlainCursor) :=
  match cursor.rest with
  | '?' :: rest => do
    let (flags, mark, rest) ← readPlainFlags? cursor.flags false rest
    return (if mark == ')' then .flags else .unnumbered,
      { cursor with flags := flags, rest := rest })
  | _ => some (.numbered (cursor.groups + 1), { cursor with groups := cursor.groups + 1 })

mutual

/-- Read a choice of sequences, the latest first in `branches`, up to the end of the group. -/
def readPlainChoice : Nat → List Piece → PlainCursor → Option (Piece × PlainCursor)
  | 0, _, _ => none
  | fuel + 1, branches, cursor => do
    let (branch, cursor) ← readPlainParts fuel [] cursor
    match cursor.rest with
    | '|' :: rest => readPlainChoice fuel (branch :: branches) (cursor.moveTo rest)
    | _ => return (.ofBranches (branch :: branches).reverse, cursor)

/-- Read pieces up to the end of the sequence, the latest first in `pieces`. -/
def readPlainParts : Nat → List Piece → PlainCursor → Option (Piece × PlainCursor)
  | 0, _, _ => none
  | fuel + 1, pieces, cursor =>
    match cursor.rest with
    | [] | ')' :: _ | '|' :: _ => some (.ofParts pieces.reverse, cursor)
    | '(' :: rest => do
      let (piece, cursor) ← readPlainGroup fuel (cursor.moveTo rest)
      let (piece, cursor) ← readPlainRepeats fuel piece cursor
      readPlainParts fuel (piece :: pieces) cursor
    | _ => do
      let (piece, cursor) ← readPlainAtom? fuel cursor
      let (piece, cursor) ← readPlainRepeats fuel piece cursor
      readPlainParts fuel (piece :: pieces) cursor

/-- Read a group whose opening parenthesis has been read, or flags by themselves. -/
def readPlainGroup : Nat → PlainCursor → Option (Piece × PlainCursor)
  | 0, _ => none
  | fuel + 1, cursor => do
    let (opening, inner) ← readPlainOpening? cursor
    if opening matches .flags then return (.leaf .empty, inner)
    else
      let (body, last) ← readPlainChoice fuel [] inner
      match last.rest with
      | ')' :: rest =>
        return (⟨opening.close body.tree, body.depth + 1⟩,
          { last with rest := rest, flags := cursor.flags })
      | _ => none

end

/-- Read a text of the plain notation. -/
def Regular.parse? (text : List Char) : Option Regular := do
  let (piece, cursor) ← readPlainChoice (4 * text.length + 8) [] { rest := text }
  if cursor.rest.isEmpty && piece.depth ≤ plainDepthLimit then return piece.tree else none

end LexicalModes.Pattern
