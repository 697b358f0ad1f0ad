import LexicalModes.Grammar.Blocks
import LexicalModes.Main
import LexicalModes.Proofs.Classify
import LexicalModes.Proofs.ScanSteps
import LexicalModes.Proofs.Calls
import LexicalModes.Proofs.Conservation
import LexicalModes.Proofs.Nesting
import LexicalModes.Proofs.Origins
import LexicalModes.Proofs.Pieces
import LexicalModes.Proofs.Terminators
import LexicalModes.Proofs.Inheritance
import LexicalModes.Proofs.Frames
import LexicalModes.Proofs.Parents
import LexicalModes.Proofs.Finishing
import LexicalModes.Proofs.Progress
import LexicalModes.Proofs.ByteOffsets
import LexicalModes.Proofs.ByteScan
import LexicalModes.Proofs.Bounds
import LexicalModes.Proofs.Runs
import LexicalModes.Proofs.Failures
import LexicalModes.Proofs.Containment
import LexicalModes.Proofs.Leniency
import LexicalModes.Proofs.Scoring
import LexicalModes.Proofs.Attribution
import LexicalModes.Proofs.Detection
import LexicalModes.Proofs.Emitted
import LexicalModes.Proofs.Seams
import LexicalModes.Proofs.Limits
import LexicalModes.Proofs.Dangling
import LexicalModes.Proofs.Definitions
import LexicalModes.Proofs.Threads
import LexicalModes.Proofs.Loading
import LexicalModes.Proofs.EmptyLexemes
import LexicalModes.Proofs.Naming
import LexicalModes.Proofs.Reachability
import LexicalModes.Proofs.Copies
import LexicalModes.Proofs.Descent
import LexicalModes.Proofs.BoundEnds
import LexicalModes.Proofs.Closing
import LexicalModes.Proofs.PieceStarts
import LexicalModes.Proofs.Renumbering
import LexicalModes.Proofs.GroupCounts
import LexicalModes.Proofs.Lexemes
import LexicalModes.Proofs.Keywords
import LexicalModes.Proofs.Folding
import LexicalModes.Proofs.BeginKeywords
import LexicalModes.Proofs.NormalForm
import LexicalModes.Proofs.Styling
import LexicalModes.Proofs.Markup
import LexicalModes.Proofs.Rendering
import LexicalModes.Proofs.Resuming
import LexicalModes.Proofs.Independence
import LexicalModes.Proofs.Registration
