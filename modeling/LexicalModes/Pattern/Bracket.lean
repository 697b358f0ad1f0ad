import LexicalModes.Pattern.Escape

/-!
Bracketed classes such as `[a-z_]`, `[^\d]` and `[\w&&[^_]]`.

Only the extent of a class is found here, by counting brackets. Its text is kept, with escape
sequences replaced by what the plain notation has for them, to be read as a class in that
notation.
-/

namespace LexicalModes.Pattern

/-- Characters that a backslash goes before in the plain notation, inside of a class or outside. -/
def isClassMark (c : Char) : Bool := "\\.+*?()|[]\x7b\x7d^$#&-~".toList.contains c

/-- A character by itself as a class writes it. -/
def classChar (c : Char) : List Char := if isClassMark c then ['\\', c] else [c]

/-- The text of a class up to the bracket that closes it, `unclosed` brackets of which are still
open. -/
def readClassRest : Nat → Nat → Cursor → Option (List Char × Cursor)
  | 0, _, _ => none
  | fuel + 1, unclosed, cursor =>
    match cursor.rest with
    | [] => none
    | '\\' :: rest => do
      let (escape, next) ← readEscape? true (cursor.moveTo rest)
      let written ← match escape with
        | .literal c _ => some (classChar c)
        | .classText text _ => some text
        | _ => none
      let (text, last) ← readClassRest fuel unclosed next
      return (written ++ text, last)
    | '[' :: rest => do
      let (text, last) ← readClassRest fuel (unclosed + 1) (cursor.moveTo rest)
      return ('[' :: text, last)
    | ']' :: rest =>
      if unclosed ≤ 1 then some ([']'], cursor.moveTo rest)
      else do
        let (text, last) ← readClassRest fuel (unclosed - 1) (cursor.moveTo rest)
        return (']' :: text, last)
    | c :: rest => do
      let (text, last) ← readClassRest fuel unclosed (cursor.moveTo rest)
      return (c :: text, last)

/-- Read the text of a class whose opening bracket has been read: a caret and then a closing bracket
may come first without closing it. -/
def readBracket? (cursor : Cursor) : Option (List Char × Cursor) := do
  let (caret, cursor) := match cursor.rest with
    | '^' :: rest => (['^'], cursor.moveTo rest)
    | _ => ([], cursor)
  let (bracket, cursor) := match cursor.rest with
    | ']' :: rest => ([']'], cursor.moveTo rest)
    | _ => ([], cursor)
  let (text, cursor) ← readClassRest (cursor.rest.length + 1) 1 cursor
  return ('[' :: caret ++ bracket ++ text, cursor)

end LexicalModes.Pattern
