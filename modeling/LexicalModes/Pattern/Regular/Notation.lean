import LexicalModes.Pattern.Node

/-!
The plain notation, in which regular pieces are handed over.

It has no flags in force from the outside: a piece that ignores case, or a dot and line marks under
flags, carry them in a group of their own. Classes keep the text they were written in. Pieces are
put into a group wherever they would bind less tightly than their surroundings ask for.
-/

namespace LexicalModes.Pattern

/-- How tightly the surroundings of a piece bind. -/
inductive Binding
  /-- As a whole, where even a choice needs no group. -/
  | whole
  /-- As a branch of a choice, which may be a sequence. -/
  | branch
  /-- As a part of a sequence, which may be a repeat. -/
  | part
  /-- As the body of a repeat. -/
  | body
  deriving DecidableEq, Repr

/-- Put a text into a group that is not remembered, if asked to. -/
def grouped (needed : Bool) (text : List Char) : List Char :=
  if needed then "(?:".toList ++ text ++ [')'] else text

/-- Put a text into a group with the case flag, if case is ignored. -/
def flagged (caseless : Bool) (text : List Char) : List Char :=
  if caseless then "(?i:".toList ++ text ++ [')'] else text

/-- Characters that stand for themselves only after a backslash. -/
def isMark (c : Char) : Bool := "\\.+*?()|[]\x7b\x7d^$#".toList.contains c

/-- A character by itself. -/
def quoted (c : Char) : List Char := if isMark c then ['\\', c] else [c]

/-- The bounds of a repeat. -/
def boundsText (least : Nat) (most : Option Nat) : List Char :=
  match least, most with
  | 0, some 1 => ['?']
  | 0, none => ['*']
  | 1, none => ['+']
  | least, none => '\x7b' :: (toString least).toList ++ [',', '\x7d']
  | least, some most =>
    if least == most then '\x7b' :: (toString least).toList ++ ['\x7d']
    else '\x7b' :: (toString least).toList ++ ',' :: (toString most).toList ++ ['\x7d']

/-- A condition on the position; those on words have no place in regular pieces. -/
def Assertion.plain : Assertion → List Char
  | .textStart => ['^']
  | .textEnd => ['$']
  | .lineStart => "(?m:^)".toList
  | .lineEnd => "(?m:$)".toList
  | _ => []

namespace Node

mutual

/-- The text of a regular piece in surroundings that bind so tightly. Other pieces have none. -/
def plain (binding : Binding) : Node → List Char
  | .any newline => if newline then "(?s:.)".toList else ['.']
  | .literal c caseless => flagged caseless (quoted c)
  | .classText text caseless => flagged caseless text
  | .assertion condition => condition.plain
  | .seq parts => grouped (binding == .part || binding == .body) (plainParts .part parts)
  | .alt branches => grouped (binding != .whole) (plainBranches branches)
  | .group _ body => '(' :: body.plain .whole ++ [')']
  | .iterate body least most greedy =>
    grouped (binding == .body)
      (body.plain .body ++ boundsText least most ++ (if greedy then [] else ['?']))
  | _ => []

/-- The texts of parts one after another. -/
def plainParts (binding : Binding) : List Node → List Char
  | [] => []
  | p :: rest => p.plain binding ++ plainParts binding rest

/-- The texts of branches with bars between them. -/
def plainBranches : List Node → List Char
  | [] => []
  | [p] => p.plain .branch
  | p :: rest => p.plain .branch ++ '|' :: plainBranches rest

end

end Node

end LexicalModes.Pattern
