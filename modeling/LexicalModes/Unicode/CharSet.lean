import LexicalModes.Unicode.Runs

/-!
Sets of characters.

A `CharSet` lists the code points of its members as inclusive ranges in ascending order, with a gap
between any two of them. Sets are combined range by range (`union`, `compl` and what follows from
them), and `CharSet.contains` finds the range a code point falls in by bisection. Long sets are
written as the lengths of runs, which `CharSet.ofRuns` reads.
-/

namespace LexicalModes.Unicode

/-- A set of characters: the inclusive ranges of their code points, ascending and apart. -/
structure CharSet where
  ranges : Array (Nat × Nat)
  deriving DecidableEq, Repr

namespace CharSet

/-- Absorb into a range those after it that touch it, and go on with the next one that does not.
The ranges must be in the order of their first members. -/
def coalesce (current : Nat × Nat) : List (Nat × Nat) → List (Nat × Nat)
  | [] => [current]
  | next :: rest =>
    if next.1 ≤ current.2 + 1 then coalesce (current.1, max current.2 next.2) rest
    else current :: coalesce next rest

/-- The set of ranges that are in the order of their first members. -/
def ofSorted : List (Nat × Nat) → CharSet
  | [] => ⟨#[]⟩
  | first :: rest => ⟨(coalesce first rest).toArray⟩

/-- Whether the first range starts no later than the second. -/
def startsFirst (a b : Nat × Nat) : Bool := a.1 ≤ b.1

/-- The set of ranges in any order. -/
def ofRanges (ranges : List (Nat × Nat)) : CharSet := ofSorted (ranges.mergeSort startsFirst)

/-- No character. -/
def empty : CharSet := ⟨#[]⟩

/-- Every character from the first to the last, both included. -/
def range (first last : Char) : CharSet := ⟨#[(first.toNat, last.toNat)]⟩

/-- Just this character. -/
def single (c : Char) : CharSet := range c c

/-- Just these characters. -/
def ofChars (chars : List Char) : CharSet := ofRanges (chars.map fun c => (c.toNat, c.toNat))

/-- Every character. -/
def all : CharSet := ⟨#[(0, lastCode)]⟩

/-- Characters in either set. -/
def union (a b : CharSet) : CharSet :=
  ofSorted (List.merge a.ranges.toList b.ranges.toList startsFirst)

/-- Characters in one of the sets. -/
def unionAll (sets : List CharSet) : CharSet :=
  match sets with
  | [s] => s
  | sets => ofRanges (sets.flatMap (·.ranges.toList))

/-- The gaps between ascending ranges, from `code` to the last code point. -/
def gaps (code : Nat) : List (Nat × Nat) → List (Nat × Nat)
  | [] => if code ≤ lastCode then [(code, lastCode)] else []
  | r :: rest =>
    if code < r.1 then (code, r.1 - 1) :: gaps (r.2 + 1) rest else gaps (r.2 + 1) rest

/-- Characters outside the set. -/
def compl (s : CharSet) : CharSet := ⟨(gaps 0 s.ranges.toList).toArray⟩

/-- Characters in both sets. -/
def inter (a b : CharSet) : CharSet := (a.compl.union b.compl).compl

/-- Characters in the first set and not in the second. -/
def diff (a b : CharSet) : CharSet := (a.compl.union b).compl

/-- Characters in exactly one of the sets. -/
def symmDiff (a b : CharSet) : CharSet := (a.diff b).union (b.diff a)

/-- The complement of the set if it is negated, else the set itself. -/
def negateIf (negated : Bool) (s : CharSet) : CharSet := if negated then s.compl else s

/-- Whether the code point is a member. -/
def containsCode (s : CharSet) (code : Nat) : Bool :=
  match lastAtMost? (·.1) s.ranges code with
  | some r => r.1 ≤ code && code ≤ r.2
  | none => false

/-- Whether the character is a member. -/
def contains (s : CharSet) (c : Char) : Bool := s.containsCode c.toNat

/-- The only member of a set that has one. -/
def only? (s : CharSet) : Option Char :=
  match s.ranges.toList with
  | [(first, last)] => if first == last then some (Char.ofNat first) else none
  | _ => none

/-- The ranges of runs of the given lengths from `code` on, which lie outside and inside of the set
in turn. -/
def runRanges (code : Nat) : List Nat → List (Nat × Nat)
  | outside :: inside :: rest =>
    (code + outside, code + outside + inside - 1) :: runRanges (code + outside + inside) rest
  | _ => []

/-- Read a set from the lengths of the runs of code points that lie outside and inside of it in
turn, starting with those before its first member. -/
def ofRuns (lines : List String) : CharSet :=
  ⟨(runRanges 0 (readNumbers (String.join lines))).toArray⟩

/-- The code points whose label in a table of runs satisfies the test. -/
def ofLabels {α : Type} (test : α → Bool) (runs : Array (Nat × α)) : CharSet :=
  let starts := runs.toList
  let ends := (starts.drop 1).map (·.1 - 1) ++ [lastCode]
  ofSorted ((starts.zip ends).filterMap fun ((first, label), last) =>
    if test label then some (first, last) else none)

end CharSet

end LexicalModes.Unicode
