import LexicalModes.Pattern.Bracket

/-!
Reading the text of a pattern.

A pattern is a choice of branches, a branch a sequence of pieces, and a piece an atom with an
optional repeat. Flags set in the middle of a pattern hold for all that follows, later branches
included; only `(?flags:…)` puts the earlier ones back. `parse?` returns the pattern's tree together
with the groups it refers to, and refuses a text that is not a pattern.
-/

namespace LexicalModes.Pattern

/-- Groups may be nested this deep, less one. -/
def nestingLimit : Nat := 64

/-- A pattern as read: its tree, the number of its groups, and the groups it refers to. -/
structure Parsed where
  node : Node
  groups : Nat
  referenced : List Nat
  deriving Repr

/-- How many times a piece may be repeated. -/
structure Bounds where
  least : Nat
  most : Option Nat

/-- Read the bounds of a repeat whose opening brace has been read. -/
def readBounds? (cursor : Cursor) : Option (Bounds × Cursor) := do
  let cursor ← cursor.skip
  let (least, cursor) ← match cursor.rest with
    | ',' :: _ => some (0, cursor)
    | text => (readNat? text).map fun (n, rest) => (n, cursor.moveTo rest)
  let cursor ← cursor.skip
  let (most, cursor) ← match cursor.rest with
    | '\x7d' :: _ => some (some least, cursor)
    | ',' :: rest => do
      let cursor ← (cursor.moveTo rest).skip
      match readNat? cursor.rest with
      | some (n, rest) => some (if n == largestNumber then none else some n, cursor.moveTo rest)
      | none => some (none, cursor)
    | _ => none
  let cursor ← cursor.skip
  match cursor.rest with
  | '\x7d' :: rest => return (⟨least, most⟩, cursor.moveTo rest)
  | _ => none

/-- Read the bounds of a repeat, if a repeat comes next. Braces that do not hold bounds are left to
stand for themselves. -/
def readRepeat? (cursor : Cursor) : Option (Bounds × Cursor) :=
  match cursor.rest with
  | '?' :: rest => some (⟨0, some 1⟩, cursor.moveTo rest)
  | '*' :: rest => some (⟨0, none⟩, cursor.moveTo rest)
  | '+' :: rest => some (⟨1, none⟩, cursor.moveTo rest)
  | '\x7b' :: rest => readBounds? (cursor.moveTo rest)
  | _ => none

/-- Read what may follow the bounds of a repeat of the given piece: `?` reverses the preference,
and then `+` makes the repeat atomic. -/
def finishRepeat? (piece : Node) (bounds : Bounds) (cursor : Cursor) : Option (Node × Cursor) :=
  if !piece.isRepeatable then none
  else do
    let cursor ← cursor.skip
    let (lazy, cursor) := match cursor.rest with
      | '?' :: rest => (true, cursor.moveTo rest)
      | _ => (false, cursor)
    let node := Node.iterate piece bounds.least bounds.most (lazy == cursor.flags.swapGreed)
    match cursor.rest with
    | '+' :: rest => return (.atomic node, cursor.moveTo rest)
    | _ => return (node, cursor)

/-- Read the closing parenthesis of a group. -/
def readClose? (cursor : Cursor) : Option Cursor := do
  let cursor ← cursor.skip
  match cursor.rest with
  | ')' :: rest => return cursor.moveTo rest
  | _ => none

/-- How a list of flags ends: at once, or with a body for which alone the flags hold. -/
inductive FlagsEnd
  | closed
  | body
  deriving DecidableEq

/-- Read flags up to `)` or `:`, `start` being where they start. A minus sign clears those after it
and may stand once. Something has to stand before `)`, and more than the minus sign before either;
blanks and comments will do where they are skipped. -/
def readFlags? (start : List Char) : Nat → Bool → Cursor → Option (FlagsEnd × Cursor)
  | 0, _, _ => none
  | fuel + 1, clear, cursor => do
    let cursor ← cursor.skip
    let passed := start.length - cursor.rest.length
    match cursor.rest with
    | [] => none
    | ')' :: rest =>
      if passed == 0 || (clear && passed == 1) then none else return (.closed, cursor.moveTo rest)
    | ':' :: rest =>
      if clear && passed == 1 then none else return (.body, cursor.moveTo rest)
    | '-' :: rest =>
      if clear then none else readFlags? start fuel true (cursor.moveTo rest)
    | c :: rest => do
      let flags ← cursor.flags.update? clear c
      readFlags? start fuel clear { cursor with rest := rest, flags := flags }

/-- The kinds of parenthesis that hold a pattern and need no more than their mark to be told. -/
inductive Opening
  | look (direction : Direction) (positive : Bool)
  | capture (index : Nat)
  | atomic

/-- The piece made of an opening and its body. -/
def Opening.close (opening : Opening) (body : Node) : Node :=
  match opening with
  | .look direction positive => .look direction positive body
  | .capture index => .group index body
  | .atomic => .atomic body

/-- Open a group that is remembered under a name. -/
def openNamed? (cursor : Cursor) (text : List Char) : Option (Opening × Cursor) := do
  let index := cursor.groups + 1
  let (name, rest) ← readName? false '>' text
  return (.capture index,
    { cursor with
      rest := rest
      groups := index
      names := (String.ofList name, index) :: cursor.names })

/-- Read the mark after an opening parenthesis, if it is one of the plain kinds. -/
def readOpening? (cursor : Cursor) : Option (Opening × Cursor) :=
  match cursor.rest with
  | '?' :: '=' :: rest => some (.look .ahead true, cursor.moveTo rest)
  | '?' :: '!' :: rest => some (.look .ahead false, cursor.moveTo rest)
  | '?' :: '<' :: '=' :: rest => some (.look .behind true, cursor.moveTo rest)
  | '?' :: '<' :: '!' :: rest => some (.look .behind false, cursor.moveTo rest)
  | '?' :: '<' :: rest => openNamed? cursor rest
  | '?' :: 'P' :: '<' :: rest => openNamed? cursor rest
  | '?' :: '>' :: rest => some (.atomic, cursor.moveTo rest)
  | '?' :: _ => none
  | _ => some (.capture (cursor.groups + 1), { cursor with groups := cursor.groups + 1 })

/-- Read the reference that a conditional may test, if one comes next. -/
def readTestedRef? (cursor : Cursor) : Option (Option (Nat × Cursor)) :=
  match cursor.rest with
  | '\'' :: rest => (readNamedRef? true '\'' (cursor.moveTo rest)).map some
  | '<' :: rest => (readNamedRef? true '>' (cursor.moveTo rest)).map some
  | c :: _ => if c.isDigit then (readNumberedRef? cursor).map some else some none
  | [] => none

/-- The conditional with this test whose body was read as `body`: the first branch is taken if the
test holds, the others if not. -/
def Node.conditional (test body : Node) : Node :=
  let test := match test with
    | .backref index => Node.isSet index
    | test => test
  let (yes, no) := match body with
    | .alt (yes :: rest) => (yes, Node.ofBranches rest)
    | body => (body, Node.empty)
  if yes.isEmpty && no.isEmpty then test else .cond test yes no

mutual

/-- Read a choice of branches. -/
def readChoice (depth : Nat) : Nat → Cursor → Option (Node × Cursor)
  | 0, _ => none
  | fuel + 1, cursor => do
    let (first, cursor) ← readBranch depth fuel [] cursor
    let cursor ← cursor.skip
    match cursor.rest with
    | '|' :: _ =>
      let (others, cursor) ← readBranches depth fuel cursor
      return (.alt (first :: others), cursor)
    | _ =>
      -- groups with names can only be referred to by name
      if cursor.numbered && !cursor.names.isEmpty then none else return (first, cursor)

/-- Read further branches, each after a bar. -/
def readBranches (depth : Nat) : Nat → Cursor → Option (List Node × Cursor)
  | 0, _ => none
  | fuel + 1, cursor =>
    match cursor.rest with
    | '|' :: rest => do
      let (branch, cursor) ← readBranch depth fuel [] (cursor.moveTo rest)
      let cursor ← cursor.skip
      let (others, cursor) ← readBranches depth fuel cursor
      return (branch :: others, cursor)
    | _ => some ([], cursor)

/-- Read pieces as long as they take something, the latest first in `pieces`. -/
def readBranch (depth : Nat) : Nat → List Node → Cursor → Option (Node × Cursor)
  | 0, _, _ => none
  | fuel + 1, pieces, cursor =>
    if cursor.rest.isEmpty then some (.ofParts pieces.reverse, cursor)
    else do
      let (piece, next) ← readPiece depth fuel cursor
      if next.rest.length == cursor.rest.length then
        return (.ofParts pieces.reverse, cursor)
      else
        readBranch depth fuel (if piece.isEmpty then pieces else piece :: pieces) next

/-- Read an atom and its repeat, if there is one. -/
def readPiece (depth : Nat) : Nat → Cursor → Option (Node × Cursor)
  | 0, _ => none
  | fuel + 1, cursor => do
    let (atom, cursor) ← readAtom depth fuel cursor
    let cursor ← cursor.skip
    match readRepeat? cursor with
    | some (bounds, next) => finishRepeat? atom bounds next
    | none => return (atom, cursor)

/-- Read an atom: a group, a class, an escape, an assertion, or a character that stands for
itself. Marks that end a piece are left unread. -/
def readAtom (depth : Nat) : Nat → Cursor → Option (Node × Cursor)
  | 0, _ => none
  | fuel + 1, cursor => do
    let cursor ← cursor.skip
    let caseless := cursor.flags.caseless
    match cursor.rest with
    | [] => return (.empty, cursor)
    | '.' :: rest => return (.any cursor.flags.dotAll, cursor.moveTo rest)
    | '^' :: rest =>
      return (.assertion (if cursor.flags.multiline then .lineStart else .textStart),
        cursor.moveTo rest)
    | '$' :: rest =>
      return (.assertion (if cursor.flags.multiline then .lineEnd else .textEnd),
        cursor.moveTo rest)
    | '(' :: rest => readGroup (depth + 1) fuel (cursor.moveTo rest)
    | '\\' :: rest => readEscape? false (cursor.moveTo rest)
    | '[' :: rest =>
      let (text, next) ← readBracket? (cursor.moveTo rest)
      return (.classText text caseless, next)
    | c :: rest =>
      if c == '+' || c == '*' || c == '?' || c == '|' || c == ')' then return (.empty, cursor)
      else return (.literal c caseless, cursor.moveTo rest)

/-- Read a group whose opening parenthesis has been read. -/
def readGroup (depth : Nat) : Nat → Cursor → Option (Node × Cursor)
  | 0, _ => none
  | fuel + 1, cursor =>
    if depth ≥ nestingLimit then none
    else do
      let cursor ← cursor.skip
      match cursor.rest with
      | '?' :: 'P' :: '=' :: rest =>
        let (index, next) ← readNamedRef? false ')' (cursor.moveTo rest)
        return (.backref index, next)
      | '?' :: '(' :: rest => readConditional depth fuel (cursor.moveTo rest)
      | _ =>
        match readOpening? cursor with
        | some (opening, next) =>
          let (body, next) ← readChoice depth fuel next
          let next ← readClose? next
          return (opening.close body, next)
        | none =>
          let start := cursor.rest.drop 1
          let (ending, next) ← readFlags? start (start.length + 1) false (cursor.moveTo start)
          if ending == .closed then return (.empty, next)
          else
            let (body, next) ← readChoice depth fuel next
            let next ← readClose? next
            return (body, { next with flags := cursor.flags })

/-- Read a conditional whose two opening parentheses have been read. A test of a group without any
branch is just the test. -/
def readConditional (depth : Nat) : Nat → Cursor → Option (Node × Cursor)
  | 0, _ => none
  | fuel + 1, cursor => do
    let (test, cursor) ← match ← readTestedRef? cursor with
      | some (index, next) => some (Node.backref index, next)
      | none => readChoice depth fuel cursor
    let cursor ← readClose? cursor
    let (body, next) ← readChoice depth fuel cursor
    let last ← readClose? next
    if next.rest.length == cursor.rest.length then
      match test with
      | .backref index => return (.isSet index, last)
      | _ => none
    else return (Node.conditional test body, last)

end

/-- Read a whole pattern. What refers to a group must come after the group is opened. -/
def parse? (text : String) : Option Parsed := do
  let chars := text.toList
  let (node, cursor) ← readChoice 0 (10 * chars.length + 20)
    { rest := chars, size := text.utf8ByteSize }
  if cursor.rest.isEmpty && (node.opened? 0).isSome then
    return ⟨node, cursor.groups, cursor.referenced⟩
  else none

end LexicalModes.Pattern
