import LexicalModes.Pattern.Regular
import Std.Data.HashMap

/-!
How much memory the automaton of a regular piece takes.

The measure is that of an automaton that reads the text byte by byte, in either direction: every
byte of a character has a state of its own, a repeat is written out as often as it may go round, and
a class becomes a tree of byte ranges, of which equal parts at the front (read backward) or at the
end (read forward) are shared. A piece that takes more than `weightLimit` is refused.
-/

namespace LexicalModes.Pattern

open Unicode

/-- Most bytes that the automaton of a piece may take. -/
def weightLimit : Nat := 0xA00000

/-- Bytes of a state. -/
def stateWeight : Nat := 32

/-- Bytes of a way out of a state that has several. -/
def branchWeight : Nat := 4

/-- Bytes of a byte range in a state that has several. -/
def stepWeight : Nat := 8

/-- Code points that take the same number of bytes: the first, the last, and that number. Those in
between stand for no characters. -/
def byteLengths : List (Nat × Nat × Nat) :=
  [(0, 0x7F, 1), (0x80, 0x7FF, 2), (0x800, 0xD7FF, 3), (0xE000, 0xFFFF, 3),
   (0x10000, 0x10FFFF, 4)]

/-- The bytes of a code point that takes so many. -/
def bytesOf (code : Nat) : Nat → List Nat
  | 1 => [code]
  | 2 => [0xC0 + code / 64, 0x80 + code % 64]
  | 3 => [0xE0 + code / 4096, 0x80 + code / 64 % 64, 0x80 + code % 64]
  | _ => [0xF0 + code / 262144, 0x80 + code / 4096 % 64, 0x80 + code / 64 % 64, 0x80 + code % 64]

/-- A text of so many bytes, the first and the last that each may be. -/
abbrev ByteRanges := List (Nat × Nat)

/-- Where a range of code points has to be divided so that bytes may vary independently: at the
first block, of those counted by the last bytes, that the range enters and covers in part. -/
def divide? (first last : Nat) : List Nat → Option Nat
  | [] => none
  | block :: rest =>
    if first / block == last / block then divide? first last rest
    else if first % block != 0 then some (first / block * block + block)
    else if last % block != block - 1 then some (last / block * block)
    else divide? first last rest

/-- The byte ranges of a range of code points that take the same number of bytes. -/
def alignedRanges (size : Nat) : Nat → Nat → Nat → List ByteRanges
  | 0, _, _ => []
  | fuel + 1, first, last =>
    match divide? first last [64, 4096, 262144] with
    | some middle =>
      alignedRanges size fuel first (middle - 1) ++ alignedRanges size fuel middle last
    | none => [(bytesOf first size).zip (bytesOf last size)]

/-- The byte ranges of a range of code points, in ascending order. -/
def byteRanges (r : Nat × Nat) : List ByteRanges :=
  byteLengths.flatMap fun (first, last, size) =>
    if r.2 < first || last < r.1 then []
    else alignedRanges size 16 (max r.1 first) (min r.2 last)

/-- The byte ranges of a set, in ascending order. -/
def setByteRanges (set : CharSet) : List ByteRanges := set.ranges.toList.flatMap byteRanges

/-- How far two texts agree. -/
def commonLength : ByteRanges → ByteRanges → Nat
  | a :: as, b :: bs => if a == b then commonLength as bs + 1 else 0
  | _, _ => 0

/-- States for texts in ascending order after the one before, which share what they start with. -/
def statesAfter (before : ByteRanges) : List ByteRanges → Nat
  | [] => 0
  | text :: rest => text.length - commonLength before text + statesAfter text rest

/-- Bytes of the states of a class read backward. -/
def backwardWeight (texts : List ByteRanges) : Nat :=
  stateWeight * (2 + statesAfter [] texts) + branchWeight * texts.length

/-- States for what may follow, by their steps, and the number of each. -/
abbrev Shared := Std.HashMap (List (Nat × Nat × Nat)) Nat

/-- Find or add the state that matches one of the texts, which are in ascending order. Texts that
end here lead to state zero, the end of the class. -/
def share : Nat → List ByteRanges → Shared → Nat × Shared
  | 0, _, shared => (0, shared)
  | fuel + 1, texts, shared =>
    if texts.all List.isEmpty then (0, shared)
    else
      let (steps, shared) :=
        (texts.splitBy fun a b => a.head? == b.head?).foldl (fun (steps, shared) texts =>
          let (next, shared) := share fuel (texts.map (·.drop 1)) shared
          match texts.head?.bind List.head? with
          | some (first, last) => ((first, last, next) :: steps, shared)
          | none => (steps, shared)) ([], shared)
      match shared[steps]? with
      | some state => (state, shared)
      | none => (shared.size + 1, shared.insert steps (shared.size + 1))

/-- Bytes of the states of a class read forward. -/
def forwardWeight (texts : List ByteRanges) : Nat :=
  let shared := (share 5 texts {}).2
  shared.fold (fun n steps _ => n + stateWeight + stepWeight * steps.length) stateWeight

/-- Ways to weigh a class: with what is shared, in either direction, or no less than that. -/
inductive Scale
  | forward
  | backward
  | generous

/-- Bytes of the states of a class. A range of code points never takes more than 2048 bytes. -/
def Scale.ofSet (scale : Scale) (set : CharSet) : Nat :=
  match set.only? with
  | some c => stateWeight * c.utf8Size
  | none =>
    if set.ranges.all (·.2 < 128) then
      if set.ranges.isEmpty then stateWeight
      else 2 * stateWeight + stepWeight * set.ranges.size
    else
      match scale with
      | .forward => forwardWeight (setByteRanges set)
      | .backward => backwardWeight (setByteRanges set)
      | .generous => 2048 * set.ranges.size

/-- Bytes of a repeat of a body with the given weight. -/
def repeatWeight (body : Nat) (mayBeEmpty : Bool) (least : Nat) (most : Option Nat) : Nat :=
  let fork := stateWeight + 2 * branchWeight
  match least, most with
  | 0, none => if mayBeEmpty then body + 2 * fork + stateWeight else body + fork
  | least, none => least * body + fork
  | least, some most =>
    if least == most then least * body
    else if least == 0 && most == 1 then body + fork + stateWeight
    else max stateWeight (least * body) + stateWeight + (most - least) * (fork + body)

/-- The union of branches that are classes, or of branches that are characters. -/
def mergedClass? (branches : List Regular) : Option CharSet := do
  let sets ← branches.mapM fun b => match b with
    | .chars set => some set
    | _ => none
  if sets.all (·.only?.isSome) || sets.all (·.only?.isNone) then some (.unionAll sets) else none

namespace Regular

mutual

/-- Bytes of the states of a piece. Only an automaton that reads forward remembers groups. -/
def weight (scale : Scale) : Regular → Nat
  | .empty | .assertion _ => stateWeight
  | .chars set => scale.ofSet set
  | .seq parts => weightOfParts scale parts
  | .alt branches =>
    match mergedClass? branches with
    | some set => scale.ofSet set
    | none =>
      2 * stateWeight + branchWeight * branches.length + weightOfParts scale branches
  | .group _ body =>
    match scale with
    | .backward => body.weight scale
    | _ => body.weight scale + 2 * stateWeight
  | .iterate body least most _ => repeatWeight (body.weight scale) body.mayBeEmpty least most

/-- Bytes of the states of all the parts. -/
def weightOfParts (scale : Scale) : List Regular → Nat
  | [] => 0
  | p :: rest => p.weight scale + weightOfParts scale rest

end

/-- Bytes of the states that go before and after every piece. -/
def frameWeight : Nat := 208

/-- Whether the automaton of the piece stays within the limit. The exact weights are only worked out
if a generous one is too large. -/
def fits (r : Regular) : Bool :=
  r.weight .generous + frameWeight ≤ weightLimit ||
    (r.weight .forward + frameWeight ≤ weightLimit &&
      r.weight .backward + frameWeight ≤ weightLimit)

end Regular

end LexicalModes.Pattern
