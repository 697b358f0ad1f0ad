import LexicalModes.Compiled.Mode

/-!
The modes open at a position of the text.

The stack holds a frame for every open mode above the root, which is always open. A frame may end in
its own way, fixed when it was entered; otherwise it ends as its mode says. A `Continuation` is the
stack at the end of a text, by which highlighting can be taken up on the text that follows.
-/

namespace LexicalModes

open Pattern

/-- An end that is fixed when a mode is entered. -/
inductive Closer
  /-- Exactly this text, whatever characters it has. A pattern that is made of a text by escaping it
  can always be read, so the error that making one may have is left out. -/
  | text (content : String)
  /-- A match of this pattern. -/
  | pattern (p : Pattern)

/-- Whether a lexeme starts with what the closer recognises. -/
def Closer.recognises (closer : Closer) (lexeme : String) : Except MatchError Bool :=
  match closer with
  | .text content => .ok (content.toList.isPrefixOf lexeme.toList)
  | .pattern p => do return (← p.matchStart? lexeme).isSome

/-- An open mode. -/
structure Frame where
  mode : ModeIndex
  closer : Option Closer := none

/-- Open modes above the root, the innermost first. -/
structure Stack where
  frames : List Frame := []

namespace Stack

/-- Only the root is open. -/
def empty : Stack := {}

/-- The frame of the root. -/
def rootFrame : Frame := { mode := CompiledGrammar.rootIndex }

/-- The innermost frame. -/
def current (s : Stack) : Frame := s.frames.headD rootFrame

/-- Number of frames above the root. -/
def depth (s : Stack) : Nat := s.frames.length

/-- The frame at a depth; the root is at depth zero. -/
def get? (s : Stack) (depth : Nat) : Option Frame :=
  if depth = 0 then some rootFrame
  else if depth ≤ s.depth then s.frames[s.depth - depth]? else none

/-- Open a mode inside the innermost one. -/
def push (s : Stack) (frame : Frame) : Stack := ⟨frame :: s.frames⟩

/-- Close the innermost mode. The root stays open. -/
def pop (s : Stack) : Stack := ⟨s.frames.tail⟩

/-- The frames above the root, the outermost first. -/
def opened (s : Stack) : List Frame := s.frames.reverse

end Stack

/-- Where highlighting of a text finished, to be taken up on the text that follows. -/
structure Continuation where
  /-- The language that was highlighted. -/
  language : String
  stack : Stack

namespace Continuation

/-- How many modes were open above the root. -/
def depth (c : Continuation) : Nat := c.stack.depth

/-- The mode that was innermost. -/
def current (c : Continuation) : ModeIndex := c.stack.current.mode

end Continuation

end LexicalModes
