import LexicalModes.Pattern.Cursor

/-!
Escape sequences: what a backslash and the characters after it stand for.
-/

namespace LexicalModes.Pattern

/-- The control character that a small letter stands for after a backslash. -/
def controlChar? : Char → Option Char
  | 'a' => some (Char.ofNat 0x07)
  | 'b' => some (Char.ofNat 0x08)
  | 'e' => some (Char.ofNat 0x1B)
  | 'f' => some (Char.ofNat 0x0C)
  | 'n' => some '\n'
  | 'r' => some '\r'
  | 't' => some '\t'
  | 'v' => some (Char.ofNat 0x0B)
  | _ => none

/-- Conditions and marks that are written as a backslash and one more character. -/
def markedNode? : Char → Option Node
  | 'A' => some (.assertion .textStart)
  | 'z' => some (.assertion .textEnd)
  | 'b' => some (.assertion .wordBoundary)
  | 'B' => some (.assertion .notWordBoundary)
  | '<' => some (.assertion .wordStart)
  | '>' => some (.assertion .wordEnd)
  | 'K' => some .keep
  | 'G' => some .origin
  | _ => none

/-- Letters that mean something after a backslash outside of a class and stand for themselves in
one. -/
def isPlainInClass (c : Char) : Bool := c == 'k' || (markedNode? c).isSome

/-- The extent of a property name: one character, or all up to a closing brace. -/
def propertyText? : List Char → Option (List Char × List Char)
  | '\x7b' :: inner =>
    match inner.dropWhile (· != '\x7d') with
    | _ :: rest => some ('\x7b' :: inner.takeWhile (· != '\x7d') ++ ['\x7d'], rest)
    | [] => none
  | c :: rest => some ([c], rest)
  | [] => none

/-- Classes that are written as a backslash and a letter: digits, white space and word characters,
which the plain notation has too, and hexadecimal digits, which case does not matter for. -/
def letterClass? (caseless : Bool) : Char → Option Node
  | 'h' => some (.classText "[0-9A-Fa-f]".toList false)
  | 'H' => some (.classText "[^0-9A-Fa-f]".toList false)
  | c => if "dDsSwW".toList.contains c then some (.classText ['\\', c] caseless) else none

/-- Read a named reference after `\k`, its name in angle brackets or apostrophes. -/
def readMarkedRef? (cursor : Cursor) : Option (Nat × Cursor) :=
  match cursor.rest with
  | '<' :: rest => readNamedRef? true '>' (cursor.moveTo rest)
  | '\'' :: rest => readNamedRef? true '\'' (cursor.moveTo rest)
  | _ => none

/-- Number of hexadecimal digits after the letter, if the letter starts a code point. -/
def hexWidth? : Char → Option Nat
  | 'x' => some 2
  | 'u' => some 4
  | 'U' => some 8
  | _ => none

/-- What a character after a backslash stands for when it starts nothing longer. A letter without a
meaning is refused; any other character stands for itself, in this case only. -/
def singleEscape? (inClass : Bool) (c : Char) : Option Node :=
  match (if inClass then none else markedNode? c), controlChar? c with
  | some piece, _ => some piece
  | none, some control => some (.literal control false)
  | none, none =>
    if c.isAlpha && !(inClass && isPlainInClass c) then none else some (.literal c false)

/-- Read the rest of an escape sequence whose backslash has been read. -/
def readEscape? (inClass : Bool) (cursor : Cursor) : Option (Node × Cursor) :=
  match cursor.rest with
  | [] => none
  | c :: rest =>
    let caseless := cursor.flags.caseless
    if c.isDigit then
      (readNumberedRef? cursor).map fun (index, after) => (.backref index, after)
    else if c == 'k' && !inClass then
      (readMarkedRef? (cursor.moveTo rest)).map fun (index, after) => (.backref index, after)
    else if (c == 'b' || c == 'B') && !inClass && rest.head? == some '\x7b' then none
    else
      match letterClass? caseless c, hexWidth? c with
      | some piece, _ => some (piece, cursor.moveTo rest)
      | none, some width =>
        (readHex? width rest).map fun (c, after) => (.literal c caseless, cursor.moveTo after)
      | none, none =>
        if c == 'p' || c == 'P' then
          (propertyText? rest).map fun (name, after) =>
            (.classText ('\\' :: c :: name) caseless, cursor.moveTo after)
        else (singleEscape? inClass c).map (·, cursor.moveTo rest)

end LexicalModes.Pattern
