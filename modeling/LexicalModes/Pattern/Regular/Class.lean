import LexicalModes.Unicode.CaseFold
import LexicalModes.Unicode.Known.Names

/-!
Classes in the plain notation: escape sequences, properties, and brackets.

A bracketed class holds characters, ranges, escape sequences, named classes `[:alpha:]` and other
classes, and the operators `&&`, `--` and `~~`, which bind equally and to the left. The depth to
which classes, unions and operators are nested is measured along with the set.
-/

namespace LexicalModes.Pattern

open Unicode

/-- The classes written `[:name:]`, which hold characters below 128 only. -/
def namedClass? : String → Option CharSet
  | "alnum" => some (.unionAll [.range '0' '9', .range 'A' 'Z', .range 'a' 'z'])
  | "alpha" => some (.unionAll [.range 'A' 'Z', .range 'a' 'z'])
  | "ascii" => some (.range (Char.ofNat 0) (Char.ofNat 127))
  | "blank" => some (.ofChars ['\t', ' '])
  | "cntrl" => some (.ofRanges [(0, 31), (127, 127)])
  | "digit" => some (.range '0' '9')
  | "graph" => some (.range '!' '~')
  | "lower" => some (.range 'a' 'z')
  | "print" => some (.range ' ' '~')
  | "punct" => some (.ofRanges [(33, 47), (58, 64), (91, 96), (123, 126)])
  | "space" => some (.ofRanges [(9, 13), (32, 32)])
  | "upper" => some (.range 'A' 'Z')
  | "word" => some (.unionAll [.range '0' '9', .range 'A' 'Z', .single '_', .range 'a' 'z'])
  | "xdigit" => some (.unionAll [.range '0' '9', .range 'A' 'F', .range 'a' 'f'])
  | _ => none

/-- Divide a text at the first place where the mark stands. -/
def divideAt? (mark : List Char) : List Char → Option (List Char × List Char)
  | [] => none
  | c :: rest =>
    if mark.isPrefixOf (c :: rest) then some ([], (c :: rest).drop mark.length)
    else (divideAt? mark rest).map fun (before, after) => (c :: before, after)

/-- The set that a property in braces asks for, and whether it asks for the complement. -/
def propertySet? (text : List Char) : Option (CharSet × Bool) :=
  match divideAt? ['!', '='] text, divideAt? [':'] text, divideAt? ['='] text with
  | some (name, value), _, _ => (Known.valued? name value).map (·, true)
  | none, some (name, value), _ => (Known.valued? name value).map (·, false)
  | none, none, some (name, value) => (Known.valued? name value).map (·, false)
  | none, none, none => (Known.named? text).map (·, false)

/-- Read a property after its letter: one character, or a text in braces. -/
def readProperty? : List Char → Option (CharSet × Bool × List Char)
  | '\x7b' :: inner =>
    match inner.dropWhile (· != '\x7d') with
    | _ :: rest =>
      (propertySet? (inner.takeWhile (· != '\x7d'))).map fun (s, negated) => (s, negated, rest)
    | [] => none
  | '\\' :: _ => none
  | c :: rest => (Known.named? [c]).map (·, false, rest)
  | [] => none

/-- A class member as written: a character, which may be the end of a range, or a set. -/
inductive ClassAtom
  | char (c : Char)
  | set (members : CharSet)

/-- The characters that a class member stands for. -/
def ClassAtom.toSet : ClassAtom → CharSet
  | .char c => .single c
  | .set members => members

/-- Read what follows a backslash. -/
def readPlainEscape? (caseless : Bool) : List Char → Option (ClassAtom × List Char)
  | 'd' :: rest => some (.set Known.digit, rest)
  | 'D' :: rest => some (.set Known.digit.compl, rest)
  | 's' :: rest => some (.set whiteSpace, rest)
  | 'S' :: rest => some (.set whiteSpace.compl, rest)
  | 'w' :: rest => some (.set Known.word, rest)
  | 'W' :: rest => some (.set Known.word.compl, rest)
  | 'p' :: rest => (readProperty? rest).map fun (s, negated, rest) =>
      (.set ((s.foldIf caseless).negateIf negated), rest)
  | 'P' :: rest => (readProperty? rest).map fun (s, negated, rest) =>
      (.set ((s.foldIf caseless).negateIf (!negated)), rest)
  | c :: rest => if c.isAlphanum || c.toNat ≥ 128 then none else some (.char c, rest)
  | [] => none

/-- Read a member at the front, a character or an escape sequence. -/
def readAtom? (caseless : Bool) : List Char → Option (ClassAtom × List Char)
  | '\\' :: rest => readPlainEscape? caseless rest
  | c :: rest => some (.char c, rest)
  | [] => none

/-- Read a named class whose opening bracket has been read: `:name:]`, or `:^name:]` for its
complement. -/
def readNamedClass? (caseless : Bool) : List Char → Option (CharSet × List Char)
  | ':' :: text =>
    let (negated, text) := match text with
      | '^' :: rest => (true, rest)
      | _ => (false, text)
    match text.dropWhile (· != ':') with
    | ':' :: ']' :: rest =>
      (namedClass? (String.ofList (text.takeWhile (· != ':')))).map fun members =>
        ((members.foldIf caseless).negateIf negated, rest)
    | _ => none
  | _ => none

/-- A set with the depth of the text it was read from. -/
structure Sized where
  set : CharSet
  depth : Nat

namespace Sized

/-- A member that holds no other. -/
def leaf (set : CharSet) : Sized := ⟨set, 0⟩

/-- Members side by side; several of them make a level of their own. -/
def ofMembers (members : List Sized) : Sized :=
  let deepest := members.foldl (fun d m => max d m.depth) 0
  ⟨.unionAll (members.map (·.set)), if members.length ≤ 1 then deepest else deepest + 1⟩

/-- The sides of an operator, combined into a level of their own. -/
def combine (operation : CharSet → CharSet → CharSet) (a b : Sized) : Sized :=
  ⟨operation a.set b.set, max a.depth b.depth + 1⟩

/-- The set closed under case variants, if case is ignored. -/
def foldIf (caseless : Bool) (s : Sized) : Sized := { s with set := s.set.foldIf caseless }

end Sized

/-- An operator waiting for its right side, with the left one. -/
abbrev Pending := Option ((CharSet → CharSet → CharSet) × Sized)

/-- Apply the waiting operator, if any, to the members read since. -/
def Pending.close (caseless : Bool) (pending : Pending) (members : List Sized) : Sized :=
  let right := Sized.ofMembers members.reverse
  match pending with
  | none => right
  | some (operation, left) => Sized.combine operation (left.foldIf caseless) (right.foldIf caseless)

/-- Read a range, or the single member at the front. A minus sign before a closing bracket or before
another minus sign makes no range. -/
def readRange? (caseless : Bool) (text : List Char) : Option (CharSet × List Char) := do
  let (first, rest) ← readAtom? caseless text
  match rest with
  | [] => none
  | '-' :: ']' :: _ | '-' :: '-' :: _ => return (first.toSet, rest)
  | '-' :: after =>
    let (last, rest) ← readAtom? caseless after
    match first, last with
    | .char a, .char b => if a ≤ b then return (.range a b, rest) else none
    | _, _ => none
  | _ => return (first.toSet, rest)

mutual

/-- Read a class whose opening bracket has been read. -/
def readClass (caseless : Bool) : Nat → List Char → Option (Sized × List Char)
  | 0, _ => none
  | fuel + 1, text => do
    let (negated, text) := match text with
      | '^' :: rest => (true, rest)
      | _ => (false, text)
    let dashes := text.takeWhile (· == '-')
    let text := text.drop dashes.length
    let (first, text) := match dashes, text with
      | [], ']' :: rest => ([Sized.leaf (.single ']')], rest)
      | _, _ => (dashes.map fun c => Sized.leaf (.single c), text)
    let (members, rest) ← readMembers caseless fuel none first text
    return (⟨(members.set.foldIf caseless).negateIf negated, members.depth + 1⟩, rest)

/-- Read the members of a class up to its closing bracket, the latest member first. -/
def readMembers (caseless : Bool) :
    Nat → Pending → List Sized → List Char → Option (Sized × List Char)
  | 0, _, _, _ => none
  | fuel + 1, pending, members, text =>
    let operate (operation : CharSet → CharSet → CharSet) (rest : List Char) :=
      readMembers caseless fuel (some (operation, pending.close caseless members)) [] rest
    match text with
    | '[' :: rest =>
      match readNamedClass? caseless rest with
      | some (set, rest) => readMembers caseless fuel pending (.leaf set :: members) rest
      | none => do
        let (nested, rest) ← readClass caseless fuel rest
        readMembers caseless fuel pending (nested :: members) rest
    | ']' :: rest => some (pending.close caseless members, rest)
    | '&' :: '&' :: rest => operate .inter rest
    | '-' :: '-' :: rest => operate .diff rest
    | '~' :: '~' :: rest => operate .symmDiff rest
    | text => do
      let (set, rest) ← readRange? caseless text
      readMembers caseless fuel pending (.leaf set :: members) rest

end

end LexicalModes.Pattern
