/-!
Tables of code points written as runs.

What a table says of the code points changes seldom from one to the next, so it is written as the
lengths of runs of consecutive code points that it says the same of, from code point zero on.
`readRuns` reads runs that carry a label; `lastAtMost?` finds the run that a code point falls in by
bisection.
-/

namespace LexicalModes.Unicode

/-- The last code point. -/
def lastCode : Nat := 0x10FFFF

/-- Index of the last entry in `[low, high)` that starts at or before the code point, halving the
interval at each step of the fuel. -/
def bisect {α : Type} (start : α → Nat) (table : Array α) (code : Nat) : Nat → Nat → Nat → Nat
  | 0, low, _ => low
  | fuel + 1, low, high =>
    if high ≤ low + 1 then low
    else
      let mid := (low + high) / 2
      match table[mid]? with
      | some entry =>
        if start entry ≤ code then bisect start table code fuel mid high
        else bisect start table code fuel low mid
      | none => low

/-- The last entry of an ascending table that starts at or before the code point; the first one if
all start later, and none if the table is empty. -/
def lastAtMost? {α : Type} (start : α → Nat) (table : Array α) (code : Nat) : Option α :=
  table[bisect start table code 16 0 table.size]?

/-- Read numbers written in decimal with blanks between them. -/
def readNumbers (text : String) : List Nat :=
  let (numbers, last) := text.toList.foldl (fun (numbers, n) c =>
    if c == ' ' then (n :: numbers, 0) else (numbers, 10 * n + (c.toNat - '0'.toNat))) ([], 0)
  (last :: numbers).reverse

/-- The state of reading labelled runs: those finished, and the one being read. -/
structure RunReader where
  runs : Array (Nat × String) := #[]
  /-- First code point of the run being read. -/
  first : Nat := 0
  label : String := ""
  length : Nat := 0

/-- Record the run being read, if it has any members, and move to the code point after it. -/
def RunReader.finish (r : RunReader) : RunReader :=
  if r.length = 0 then r
  else { runs := r.runs.push (r.first, r.label), first := r.first + r.length }

/-- Take one more character: a letter belongs to a label, which starts a run, and a digit to the
length of the run. -/
def RunReader.feed (r : RunReader) (c : Char) : RunReader :=
  if c.isAlpha then
    let r := r.finish
    { r with label := r.label.push c }
  else { r with length := 10 * r.length + (c.toNat - '0'.toNat) }

/-- First code point and label of each run, in ascending order, from a text that gives the label
and then the length of each. -/
def readRuns (lines : List String) : Array (Nat × String) :=
  ((String.join lines).toList.foldl RunReader.feed {}).finish.runs

end LexicalModes.Unicode
