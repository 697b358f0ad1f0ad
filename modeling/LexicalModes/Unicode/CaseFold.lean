import LexicalModes.Unicode.Case
import LexicalModes.Unicode.CharSet

/-!
Simple case folding: which characters a pattern may not tell apart when case is ignored.

`foldChar` sends every character to the representative of its case variants, and `caseVariants`
lists all characters with the same representative. `CharSet.folded` closes a set under case
variants.
-/

namespace LexicalModes.Unicode

/-- The representative of the character's case variants. -/
def foldChar (c : Char) : Char :=
  if c.toNat < 128 then c.toLower else Char.ofNat (mapRuns foldRuns c.toNat)

/-- All characters that fold to the given representative, the representative first. Two letters
have a variant outside the first 128 characters: the Kelvin sign and the long s. -/
def variantsOf (representative : Char) : List Char :=
  if representative.toNat < 128 then
    if representative.isLower then
      representative :: representative.toUpper ::
        (if representative == 'k' then [Char.ofNat 0x212A]
         else if representative == 's' then [Char.ofNat 0x17F] else [])
    else [representative]
  else
    representative :: (foldRuns.filterMap (·.preimage? representative.toNat)).map Char.ofNat

/-- All characters equal to this one when case is ignored, itself included. -/
def caseVariants (c : Char) : List Char := variantsOf (foldChar c)

/-- Code points that folding changes, each with its representative. -/
def foldPairs : List (Nat × Nat) := foldRuns.flatMap CaseRun.pairs

/-- The set together with all case variants of its members. -/
def CharSet.folded (s : CharSet) : CharSet :=
  match s.only? with
  | some c => .ofChars (caseVariants c)
  | none =>
    let touched := foldPairs.filter fun p => s.containsCode p.1 || s.containsCode p.2
    let representatives := CharSet.ofRanges (touched.map fun p => (p.2, p.2))
    let variants := foldPairs.filter fun p => representatives.containsCode p.2
    .unionAll [s, representatives, .ofRanges (variants.map fun p => (p.1, p.1))]

/-- The set closed under case variants if case is ignored, else the set itself. -/
def CharSet.foldIf (caseless : Bool) (s : CharSet) : CharSet := if caseless then s.folded else s

end LexicalModes.Unicode
