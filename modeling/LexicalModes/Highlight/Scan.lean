import LexicalModes.Highlight.Error
import LexicalModes.Highlight.Stack

/-!
Finding the regions of a text.

The scan goes from one terminator of the innermost mode to the next. Each match opens a mode inside,
closes the innermost mode and perhaps some around it, is illegal, or means nothing. Text is gathered
in a buffer, and becomes a chunk of the mode it was read in whenever the mode changes. What is done
with the chunks is left open here: the scan yields `Event`s in order.
-/

namespace LexicalModes

open Pattern

/-- Something that happened during a scan. -/
inductive Event
  /-- A region with a class started. -/
  | begins (className : String)
  /-- A region with a class ended. -/
  | ends (className : String)
  /-- Text was read in the mode. -/
  | chunk (mode : ModeIndex) (content : String)
  /-- A mode that counts was left. -/
  | score (weight : Relevance)
  deriving DecidableEq, Repr

/-- The state of a scan. -/
structure Scan where
  stack : Stack
  /-- Text read and not yet given to a mode. -/
  buffer : String := ""
  /-- Where the previous lexeme was, if it opened a mode. -/
  entered : Option Nat := none
  /-- Where the next search starts. -/
  index : Nat := 0
  /-- Events so far, the latest first. -/
  events : List Event := []

namespace Scan

variable (g : CompiledGrammar)

/-- The innermost mode. -/
def top (s : Scan) : CompiledMode := g.mode s.stack.current.mode

/-- Add text to the buffer. -/
def gather (s : Scan) (content : String) : Scan := { s with buffer := s.buffer ++ content }

/-- Make the gathered text a chunk of the innermost mode. -/
def flush (s : Scan) : Scan :=
  if s.buffer.isEmpty then s
  else { s with buffer := "", events := .chunk s.stack.current.mode s.buffer :: s.events }

/-- Open a mode inside the innermost one. -/
def start (s : Scan) (mode : ModeIndex) (closer : Option Closer) : Scan :=
  { s with
    stack := s.stack.push ⟨mode, closer⟩
    events := ((g.mode mode).className.map Event.begins).toList ++ s.events }

/-- What happens when a mode is closed: its region ends, and its relevance counts unless it is
skipped or embeds a language. -/
def closingEvents (mode : CompiledMode) : List Event :=
  (mode.className.map Event.ends).toList ++
    (if !mode.flags.skip && mode.subLanguage.isNone then [.score mode.relevance] else [])

/-- Close the innermost modes, so many of them. -/
def closeModes : Nat → Scan → Scan
  | 0, s => s
  | n + 1, s =>
    match s.stack.frames with
    | [] => s
    | frame :: _ =>
      closeModes n
        { s with
          stack := s.stack.pop
          events := (closingEvents (g.mode frame.mode)).reverse ++ s.events }

/-- The first of the modes that a lexeme begins, and the end it is bound to if that has to be the
text it began with. -/
def beginning? (lexeme : String) :
    List ModeIndex → Except MatchError (Option (ModeIndex × Option Closer))
  | [] => .ok none
  | child :: rest =>
    let mode := g.mode child
    match mode.begins with
    | none => beginning? lexeme rest
    | some b => do
      match ← b.pattern.matchStart? lexeme with
      | some found =>
        return some (child, if mode.flags.endSameAsBegin then some (.text found) else none)
      | none => beginning? lexeme rest

/-- Whether a lexeme ends the mode of a frame by itself. -/
def endsFrame (lexeme : String) (frame : Frame) : Except MatchError Bool :=
  match frame.closer, (g.mode frame.mode).ends with
  | some closer, _ => closer.recognises lexeme
  | none, some e => do return (← e.pattern.matchStart? lexeme).isSome
  | none, none => .ok false

/-- Depth of the outermost frame that ends together with the first of these, the innermost first:
frames whose mode ends its parent take the frame below along. -/
def cascade : List Frame → Nat
  | [] => 0
  | [_] => 1
  | frame :: below =>
    if (g.mode frame.mode).flags.endsParent then cascade below else below.length + 1

/-- Depth of the frame that a lexeme ends: the innermost one, or one around it that is reached
through modes that end with their parent. The root is never ended. -/
def ending? (lexeme : String) : List Frame → Except MatchError (Option Nat)
  | [] => .ok none
  | frame :: below => do
    if ← endsFrame g lexeme frame then return some (cascade g (frame :: below))
    else if (g.mode frame.mode).flags.endsWithParent then ending? lexeme below
    else return none

/-- Open a mode at a lexeme that starts at `offset`. -/
def enter (s : Scan) (child : ModeIndex) (closer : Option Closer) (lexeme : String)
    (offset : Nat) : Scan :=
  let flags := (g.mode child).flags
  let s :=
    if flags.skip then s.gather lexeme
    else
      let s := (if flags.excludeBegin then s.gather lexeme else s).flush
      if flags.returnBegin || flags.excludeBegin then s else { s with buffer := lexeme }
  let s := s.start g child closer
  { s with
    index := if flags.returnBegin then offset else offset + lexeme.length
    entered := some offset }

/-- The end that is handed on when a frame is followed by another mode: a mode that ends with what
it began with binds its follower to the same end. -/
def inheritedCloser (frame : Frame) : Option Closer :=
  let mode := g.mode frame.mode
  if mode.flags.endSameAsBegin then
    frame.closer.or (mode.ends.map fun e => .pattern e.pattern)
  else none

/-- Close the frames from the innermost down to `depth` at a lexeme that starts at `offset`, and
open the mode that follows the outermost of them, if there is one. -/
def leave (s : Scan) (depth : Nat) (lexeme : String) (offset : Nat) : Scan :=
  let flags := (s.top g).flags
  let s :=
    if flags.skip then s.gather lexeme
    else
      let s := (if flags.returnEnd || flags.excludeEnd then s else s.gather lexeme).flush
      if flags.excludeEnd then { s with buffer := lexeme } else s
  let ended := s.stack.get? depth
  let s := closeModes g (s.stack.depth + 1 - depth) s
  let s := match ended with
    | some frame =>
      match (g.mode frame.mode).starts with
      | some following => s.start g following (inheritedCloser g frame)
      | none => s
    | none => s
  { s with index := if flags.returnEnd then offset else offset + lexeme.length }

/-- Gather the character at `offset` and move past it. -/
def stepOver (s : Scan) (text : Text) (offset : Nat) : Scan :=
  { s.gather (text.slice offset (offset + 1)) with index := offset + 1 }

/-- The name by which a mode is known when something in it is illegal. -/
def displayName (mode : CompiledMode) : String := mode.className.getD "<unnamed>"

/-- Check a lexeme against what is illegal in the innermost mode. -/
def checkLegal (s : Scan) (ignoreIllegals : Bool) (lexeme : String) : Except HighlightFault Unit :=
  if ignoreIllegals then .ok ()
  else
    match (s.top g).illegal with
    | none => .ok ()
    | some illegal => do
      if (← liftMatch (illegal.pattern.matchStart? lexeme)).isSome then
        throw (.illegalLexeme (displayName (s.top g)) lexeme)

/-- Deal with a lexeme that starts at `offset`. A mode that was opened here by an empty lexeme is
neither entered nor left again by another one: the scan steps over a character instead. A lexeme
that means nothing is gathered; if it is empty, the scan moves on by a character. -/
def dispatch (s : Scan) (ignoreIllegals : Bool) (text : Text) (lexeme : String) (offset : Nat) :
    Except HighlightFault Scan := do
  let stalled := lexeme.isEmpty && s.entered == some offset
  let s := { s with entered := none }
  match ← liftMatch (beginning? g lexeme (s.top g).contains) with
  | some (child, closer) =>
    if stalled then return s.stepOver text offset else return s.enter g child closer lexeme offset
  | none =>
    match ← liftMatch (ending? g lexeme s.stack.frames) with
    | some depth =>
      if stalled then return s.stepOver text offset else return s.leave g depth lexeme offset
    | none =>
      s.checkLegal g ignoreIllegals lexeme
      return { s.gather lexeme with index := offset + max 1 lexeme.length }

/-- Search for the next terminator and deal with it. There is no next state when the text has no
terminator any more. -/
def step? (s : Scan) (ignoreIllegals : Bool) (text : Text) : Except HighlightFault (Option Scan) :=
  match (s.top g).terminators with
  | none => .ok none
  | some terminators => do
    match ← liftMatch (terminators.find? text s.index) with
    | none => return none
    | some span =>
      let s := s.gather (text.slice s.index span.start)
      some <$> s.dispatch g ignoreIllegals text (text.slice span.start span.stop) span.start

/-- Take steps until there is no next one, at most so many. Returns the last state, and why it was
not the end if it was not. -/
def run (ignoreIllegals : Bool) (text : Text) : Nat → Scan → Scan × Option HighlightError
  | 0, s => (s, some .endless)
  | fuel + 1, s =>
    match s.step? g ignoreIllegals text with
    | .ok (some next) => run ignoreIllegals text fuel next
    | .ok none => (s, none)
    | .error fault => (s, some (.failed fault))

/-- Steps that are enough for a text when no mode is read again at its begin or end: every step
moves on, opens a mode that the next step moves on in, or closes or replaces a mode. With modes that
are read again a scan can need more. -/
def fuelFor (text : Text) (stack : Stack) : Nat :=
  4 * (text.size + stack.depth + 2) * (g.size + 2) * (g.size + 2)

/-- Gather the rest of the text and make it a chunk. -/
def finish (s : Scan) (text : Text) : Scan := (s.gather (text.slice s.index text.size)).flush

/-- Class names of the open modes, the outermost first. -/
def openClasses (stack : Stack) : List String :=
  stack.opened.filterMap fun frame => (g.mode frame.mode).className

end Scan

/-- What a scan of a text yields: the events in order, and either where it finished or why it did
not. -/
structure Scanned where
  events : List Event
  outcome : Except HighlightError Stack

/-- How many steps the scan of a text from the given open modes may take. -/
abbrev StepLimit := CompiledGrammar → Text → Stack → Nat

/-- Scan a text from the given open modes, in no more steps than are allowed. The regions of these
modes are started again at the front, and the regions still open at the end are ended. -/
def scan (g : CompiledGrammar) (limit : StepLimit) (ignoreIllegals : Bool) (stack : Stack)
    (content : String) : Scanned :=
  let text := Text.ofString content
  let reopened := (Scan.openClasses g stack).map Event.begins
  let first : Scan := { stack := stack, events := reopened.reverse }
  match Scan.run g ignoreIllegals text (limit g text stack) first with
  | (s, some e) => ⟨s.events.reverse, .error e⟩
  | (s, none) =>
    let s := s.finish text
    ⟨s.events.reverse ++ (Scan.openClasses g s.stack).reverse.map Event.ends, .ok s.stack⟩

end LexicalModes
