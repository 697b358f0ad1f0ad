import LexicalModes.Unicode.Case
import LexicalModes.Unicode.Property

/-!
Lower-casing of text.

Most characters have a lower case of their own (`lowerChar`). The Greek capital sigma is the one
letter whose lower case hangs on its neighbours: at the end of a word it becomes the final form.
`lowercase` walks over the text and carries what came before, nearest character first.
-/

namespace LexicalModes.Unicode

/-- The lower case of one character taken by itself. -/
def lowerChar (c : Char) : List Char :=
  if c.toNat < 128 then [c.toLower]
  else if c.toNat == 0x130 then ['i', Char.ofNat 0x307]
  else [Char.ofNat (mapRuns lowerRuns c.toNat)]

/-- Whether the first character that is not looked through has case. -/
def meetsCased (neighbours : List Char) : Bool :=
  match neighbours.dropWhile isCaseIgnorable with
  | c :: _ => isCased c
  | [] => false

/-- The Greek capital sigma. -/
def capitalSigma : Char := Char.ofNat 0x3A3

/-- Lower case of a sigma between the reversed text before it and the text after it: the final form
exactly when a cased letter comes before and none comes after. -/
def lowerSigma (before after : List Char) : Char :=
  if meetsCased before && !meetsCased after then Char.ofNat 0x3C2 else Char.ofNat 0x3C3

/-- Lower-case the text, given the reversed text before it. -/
def lowerAfter (before : List Char) : List Char → List Char
  | [] => []
  | c :: rest =>
    (if c == capitalSigma then [lowerSigma before rest] else lowerChar c) ++
      lowerAfter (c :: before) rest

/-- The text in lower case. -/
def lowercase (text : String) : String :=
  String.ofList (lowerAfter [] text.toList)

end LexicalModes.Unicode
