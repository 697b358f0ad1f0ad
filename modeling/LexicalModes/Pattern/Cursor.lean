import LexicalModes.Pattern.Node
import LexicalModes.Unicode.Property

/-!
Where the reading of a pattern has got to.

A `Cursor` holds the characters still to be read together with what earlier ones decided: the flags
in force, the groups opened so far with their names, and the groups referred to. The small readers
here take the front of a list of characters and return the rest.
-/

namespace LexicalModes.Pattern

/-- Settings that change how the following characters are read. -/
structure Flags where
  /-- Letters match their case variants. -/
  caseless : Bool := false
  /-- The marks `^` and `$` also match at line ends. -/
  multiline : Bool := false
  /-- The dot also matches a line feed. -/
  dotAll : Bool := false
  /-- Repeats prefer few, and a following `?` makes them prefer many. -/
  swapGreed : Bool := false
  /-- Blanks and `#` comments are skipped. -/
  spaced : Bool := false
  deriving DecidableEq, Repr

/-- The flags after setting, or clearing, the one that a letter names. -/
def Flags.update? (flags : Flags) (clear : Bool) : Char → Option Flags
  | 'i' => some { flags with caseless := !clear }
  | 'm' => some { flags with multiline := !clear }
  | 's' => some { flags with dotAll := !clear }
  | 'U' => some { flags with swapGreed := !clear }
  | 'x' => some { flags with spaced := !clear }
  | 'u' => if clear then none else some flags
  | _ => none

/-- The state of reading a pattern. -/
structure Cursor where
  rest : List Char
  /-- Number of bytes of the whole pattern. -/
  size : Nat := 0
  flags : Flags := {}
  /-- Number of groups opened so far. -/
  groups : Nat := 0
  /-- Names given to groups, the latest first. -/
  names : List (String × Nat) := []
  /-- Groups referred to so far. -/
  referenced : List Nat := []
  /-- Whether some group was referred to by a bare number. -/
  numbered : Bool := false
  deriving Repr

/-- What is being skipped between two pieces. -/
inductive Skipping
  | nothing
  | line
  | comment

/-- Skip comments `(?#…)` and, if `spaced`, blanks and `#` comments up to the end of the line.
Nothing is returned when a comment is left open. -/
def skipFrom (spaced : Bool) : Skipping → List Char → Option (List Char)
  | .nothing, '(' :: '?' :: '#' :: rest => skipFrom spaced .comment rest
  | .nothing, c :: rest =>
    if spaced && c == '#' then skipFrom spaced .line rest
    else if spaced && (c == ' ' || c == '\r' || c == '\n' || c == '\t') then
      skipFrom spaced .nothing rest
    else some (c :: rest)
  | .nothing, [] => some []
  | .line, '\n' :: rest => skipFrom spaced .nothing rest
  | .line, _ :: rest => skipFrom spaced .line rest
  | .line, [] => some []
  | .comment, ')' :: rest => skipFrom spaced .nothing rest
  | .comment, '\\' :: _ :: rest => skipFrom spaced .comment rest
  | .comment, _ :: rest => skipFrom spaced .comment rest
  | .comment, [] => none

namespace Cursor

/-- Move on to the given rest of the pattern. -/
def moveTo (cursor : Cursor) (rest : List Char) : Cursor := { cursor with rest := rest }

/-- Skip what may stand between two pieces. -/
def skip (cursor : Cursor) : Option Cursor :=
  (skipFrom cursor.flags.spaced .nothing cursor.rest).map cursor.moveTo

/-- Record a reference to a group. -/
def refer (cursor : Cursor) (index : Nat) : Cursor :=
  { cursor with referenced := index :: cursor.referenced }

end Cursor

/-- Value of a decimal digit. -/
def digitValue (c : Char) : Nat := c.toNat - '0'.toNat

/-- The largest number that patterns can write. -/
def largestNumber : Nat := 0xFFFFFFFFFFFFFFFF

/-- Read a run of decimal digits as a number, if there is any digit and the number is not too
large. -/
def readNat? (text : List Char) : Option (Nat × List Char) :=
  match text.takeWhile Char.isDigit with
  | [] => none
  | digits =>
    let value := digits.foldl (fun n c => 10 * n + digitValue c) 0
    if value ≤ largestNumber then some (value, text.dropWhile Char.isDigit) else none

/-- Value of a hexadecimal digit. -/
def hexValue? (c : Char) : Option Nat :=
  if c.isDigit then some (c.toNat - '0'.toNat)
  else if 'a' ≤ c && c ≤ 'f' then some (c.toNat - 'a'.toNat + 10)
  else if 'A' ≤ c && c ≤ 'F' then some (c.toNat - 'A'.toNat + 10)
  else none

/-- Value of a text of hexadecimal digits. -/
def hexNumber? (digits : List Char) : Option Nat :=
  digits.foldlM (fun n c => (hexValue? c).map (16 * n + ·)) 0

/-- The character with this code point, if there is one. -/
def charOfNat? (n : Nat) : Option Char := if n.isValidChar then some (Char.ofNat n) else none

/-- Read the code point of a character: exactly `width` hexadecimal digits, or up to eight of them
in braces. -/
def readHex? (width : Nat) (text : List Char) : Option (Char × List Char) :=
  let digits := text.take width
  if digits.length == width && digits.all (fun c => (hexValue? c).isSome) then do
    let c ← charOfNat? (← hexNumber? digits)
    return (c, text.drop width)
  else
    match text with
    | '\x7b' :: inner =>
      let digits := inner.takeWhile (· != '\x7d')
      match inner.dropWhile (· != '\x7d') with
      | _ :: rest =>
        if digits.isEmpty || digits.length > 8 then none
        else do
          let c ← charOfNat? (← hexNumber? digits)
          return (c, rest)
      | [] => none
    | _ => none

/-- Whether the character may stand in the name of a group. -/
def isNameChar (c : Char) : Bool := Unicode.isAlphanumeric c || c == '_'

/-- Read a name up to its closing mark. With `relative` it may start with a minus sign. -/
def readName? (relative : Bool) (closing : Char) (text : List Char) :
    Option (List Char × List Char) :=
  let (sign, body) :=
    match text with
    | '-' :: rest => if relative then (['-'], rest) else ([], text)
    | _ => ([], text)
  let name := sign ++ body.takeWhile isNameChar
  match body.dropWhile isNameChar with
  | c :: rest => if c == closing && !name.isEmpty then some (name, rest) else none
  | [] => none

/-- The number a text stands for: digits, after a minus sign those of a negative one. Numbers
outside of sixty-four bits are refused. -/
def signedNumber? (text : List Char) : Option Int :=
  let (negative, digits) := match text with
    | '-' :: digits => (true, digits)
    | _ => (false, text)
  match readNat? digits with
  | some (n, []) =>
    if negative then if n ≤ 0x8000000000000000 then some (-n) else none
    else if n < 0x8000000000000000 then some n else none
  | _ => none

/-- The group that a written name stands for: a declared name, a number, or, if that is negative, a
count back from the latest group. -/
def resolveGroup? (cursor : Cursor) (name : List Char) : Option Nat :=
  match cursor.names.lookup (String.ofList name) with
  | some index => some index
  | none => do
    let n ← signedNumber? name
    if 0 ≤ n then return n.toNat
    else
      let index := cursor.groups + 1 + n
      if 0 ≤ index then return index.toNat else none

/-- Read a group name and refer to the group it stands for. -/
def readNamedRef? (relative : Bool) (closing : Char) (cursor : Cursor) :
    Option (Nat × Cursor) := do
  let (name, rest) ← readName? relative closing cursor.rest
  let index ← resolveGroup? cursor name
  return (index, (cursor.moveTo rest).refer index)

/-- Read a group number and refer to that group. A pattern has fewer groups than half its bytes, so
a larger number is refused. -/
def readNumberedRef? (cursor : Cursor) : Option (Nat × Cursor) := do
  let (index, rest) ← readNat? cursor.rest
  if index < cursor.size / 2 then
    return (index, { (cursor.moveTo rest).refer index with numbered := true })
  else none

end LexicalModes.Pattern
