import LexicalModes.Proofs.ByteOffsets
import LexicalModes.Proofs.Runs

/-!
Scans by byte offsets. The scan keeps its position as a byte offset and moves it on by what the way
it deals with a lexeme says (`Scan.advance`): by nothing, by the length of the lexeme, or by the
width of the character there. All that it takes of the text is cut out between two offsets, and it
panics where they are no boundaries in order (`Bytes.slice`). A state by character positions has its
state by byte offsets (`Scan.inBytes`), and from there each step is the step by positions
(`Scan.stepInBytes?_inBytes`), so the whole scan is the scan by positions (`scanInBytes_eq`).
-/

namespace LexicalModes

open Pattern

namespace Scan

variable (g : CompiledGrammar) (ignoreIllegals : Bool) (content : String)

/-- How many bytes after the start of the lexeme the next search starts. -/
def advance (s : Scan) (lexeme : String) (offset : Nat) : Treatment → Nat
  | .opens child _ => if (g.mode child).flags.returnBegin then 0 else lexeme.utf8ByteSize
  | .closes _ => if (s.top g).flags.returnEnd then 0 else lexeme.utf8ByteSize
  | .stepsOver => Bytes.charWidth content offset
  | .passes => if lexeme.isEmpty then Bytes.charWidth content offset else lexeme.utf8ByteSize

/-- The state after the lexeme has been dealt with, but for where the next search starts. -/
def afterLexeme (s : Scan) (lexeme : String) (offset : Nat) : Treatment → Scan
  | .opens child closer => s.settled.enter g child closer lexeme offset
  | .closes depth => s.settled.leave g depth lexeme offset
  | .stepsOver =>
    let stop := offset + Bytes.charWidth content offset
    s.settled.gather ((Bytes.get? content offset stop).getD "")
  | .passes => s.settled.gather lexeme

/-- The state after the lexeme at the byte offset has been dealt with. -/
def treatedInBytes (s : Scan) (lexeme : String) (offset : Nat) (t : Treatment) : Scan :=
  { s.afterLexeme g content lexeme offset t with
    index := offset + s.advance g content lexeme offset t }

/-- Deal with a lexeme that starts at a byte offset. -/
def dispatchInBytes (s : Scan) (lexeme : String) (offset : Nat) : Except HighlightFault Scan := do
  let t ← liftMatch (s.treatment g lexeme offset)
  s.checkTreated g ignoreIllegals lexeme t
  return s.treatedInBytes g content lexeme offset t

/-- Gather the text before a lexeme between two byte offsets, and deal with the lexeme. -/
def takeLexeme (s : Scan) (start stop : Nat) : Except (Halt HighlightFault) Scan := do
  let before ← Bytes.slice content s.index start
  let lexeme ← Bytes.slice content start stop
  ((s.gather before).dispatchInBytes g ignoreIllegals content lexeme start).mapError .fails

/-- Search for the next terminator from the byte offset that the scan is at, and deal with it. The
search does not start after the end of the text. -/
def stepInBytes? (s : Scan) : Except (Halt HighlightFault) (Option Scan) :=
  if content.utf8ByteSize < s.index then .ok none
  else
    match (s.top g).terminators with
    | none => .ok none
    | some terminators => do
      match ← (terminators.findInBytes content s.index s.index).mapError (.map .ofMatchError) with
      | none => return none
      | some (start, stop) => some <$> s.takeLexeme g ignoreIllegals content start stop

/-- Take steps by byte offsets until there is no next one, at most so many. -/
def runInBytes : Nat → Scan → Scan × Option (Halt HighlightError)
  | 0, s => (s, some (.fails .endless))
  | fuel + 1, s =>
    match s.stepInBytes? g ignoreIllegals content with
    | .ok (some next) => runInBytes fuel next
    | .ok none => (s, none)
    | .error halt => (s, some (halt.map .failed))

/-- Gather what the text has from the byte offset on, if that is in the text, and make it a
chunk. -/
def finishInBytes (s : Scan) : Scan :=
  (s.gather ((Bytes.get? content s.index content.utf8ByteSize).getD "")).flush

end Scan

/-- Scan a text by byte offsets. Returns the events, and either where it finished or why it did
not. -/
def scanInBytes (g : CompiledGrammar) (limit : StepLimit) (ignoreIllegals : Bool) (stack : Stack)
    (content : String) : List Event × Except (Halt HighlightError) Stack :=
  let fuel := limit g (Text.ofString content) stack
  match Scan.runInBytes g ignoreIllegals content fuel (Scan.initial g stack) with
  | (s, some halt) => (s.events.reverse, .error halt)
  | (s, none) =>
    let s := s.finishInBytes content
    (s.events.reverse ++ (Scan.openClasses g s.stack).reverse.map Event.ends, .ok s.stack)

namespace Scan

/-- The state by byte offsets of a state by positions. -/
def inBytes (content : String) (s : Scan) : Scan :=
  { s with
    index := (Text.ofString content).byteAt s.index
    entered := s.entered.map (Text.ofString content).byteAt }

variable {g : CompiledGrammar} {ignoreIllegals : Bool} {content : String}

@[simp] theorem top_inBytes (s : Scan) : (s.inBytes content).top g = s.top g := rfl

@[simp] theorem index_inBytes (s : Scan) :
    (s.inBytes content).index = (Text.ofString content).byteAt s.index := rfl

variable (content) in
@[simp] theorem inBytes_initial (stack : Stack) :
    (initial g stack).inBytes content = initial g stack := by
  rw [inBytes, initial, Text.byteAt_zero]
  rfl

/-! ### Where a state is -/

/-- The state with the same stack, buffer and events, at another place. -/
def moveTo (s : Scan) (entered : Option Nat) (index : Nat) : Scan :=
  { s with entered := entered, index := index }

section MoveTo

variable (entered : Option Nat) (index : Nat)

theorem stack_moveTo (s : Scan) : (s.moveTo entered index).stack = s.stack := rfl

theorem gather_moveTo (s : Scan) (content : String) :
    (s.moveTo entered index).gather content = (s.gather content).moveTo entered index := rfl

theorem flush_moveTo (s : Scan) :
    (s.moveTo entered index).flush = s.flush.moveTo entered index := by
  have hbuffer : (s.moveTo entered index).buffer = s.buffer := rfl
  rw [flush, flush, hbuffer]
  cases s.buffer.isEmpty <;> rfl

theorem takeBegin_moveTo (s : Scan) (flags : ModeFlags) (lexeme : String) :
    (s.moveTo entered index).takeBegin flags lexeme =
      (s.takeBegin flags lexeme).moveTo entered index := by
  unfold takeBegin
  rw [gather_moveTo]
  -- This flag alone decides what is flushed.
  cases flags.excludeBegin with
  | true =>
      rw [if_pos rfl, if_pos rfl, flush_moveTo]
      cases flags.skip <;> cases flags.returnBegin <;> rfl
  | false =>
      rw [if_neg Bool.false_ne_true, if_neg Bool.false_ne_true, flush_moveTo]
      cases flags.skip <;> cases flags.returnBegin <;> rfl

theorem takeEnd_moveTo (s : Scan) (flags : ModeFlags) (lexeme : String) :
    (s.moveTo entered index).takeEnd flags lexeme =
      (s.takeEnd flags lexeme).moveTo entered index := by
  unfold takeEnd
  rw [gather_moveTo]
  cases flags.returnEnd || flags.excludeEnd with
  | true =>
      rw [if_pos rfl, if_pos rfl, flush_moveTo]
      cases flags.skip <;> cases flags.excludeEnd <;> rfl
  | false =>
      rw [if_neg Bool.false_ne_true, if_neg Bool.false_ne_true, flush_moveTo]
      cases flags.skip <;> cases flags.excludeEnd <;> rfl

theorem closeModes_moveTo (count : Nat) (s : Scan) :
    closeModes g count (s.moveTo entered index) = (closeModes g count s).moveTo entered index := by
  induction count generalizing s with
  | zero => rfl
  | succ count ih =>
      rw [closeModes, closeModes, stack_moveTo]
      cases s.stack.frames with
      | nil => rfl
      | cons frame below =>
          exact ih { s with
            stack := s.stack.pop
            events := (closingEvents (g.mode frame.mode)).reverse ++ s.events }

theorem closeTo_moveTo (s : Scan) (depth : Nat) :
    (s.moveTo entered index).closeTo g depth = (s.closeTo g depth).moveTo entered index := by
  rw [closeTo, closeTo, stack_moveTo, closeModes_moveTo]
  cases s.stack.get? depth with
  | none => rfl
  | some frame =>
      dsimp only
      cases (g.mode frame.mode).starts with
      | none => rfl
      | some following => rfl

/-- Only where a mode was opened last is left of where the state was. -/
theorem leave_moveTo (s : Scan) (depth : Nat) (lexeme : String) (offset : Nat) :
    (s.moveTo entered index).leave g depth lexeme offset =
      { s.leave g depth lexeme offset with entered := entered } := by
  rw [leave_eq, leave_eq, takeEnd_moveTo, closeTo_moveTo]
  rfl

theorem enter_moveTo (s : Scan) (child : ModeIndex) (closer : Option Closer) (lexeme : String)
    (offset : Nat) :
    (s.moveTo entered index).enter g child closer lexeme offset =
      s.enter g child closer lexeme offset := by
  rw [enter_eq, enter_eq, takeBegin_moveTo]
  rfl

end MoveTo

/-- Leaving modes does not say where one was opened. -/
theorem entered_leave (s : Scan) (depth : Nat) (lexeme : String) (offset : Nat) :
    (s.leave g depth lexeme offset).entered = s.entered := by
  have hentered := congrArg Scan.entered
    (leave_moveTo (g := g) s.entered s.index s depth lexeme offset)
  exact hentered

theorem settled_inBytes (s : Scan) :
    (s.inBytes content).settled = s.settled.moveTo none ((Text.ofString content).byteAt s.index) :=
  rfl

/-! ### One step -/

/-- How a lexeme is dealt with does not depend on how its position is told. -/
theorem treatment_inBytes (s : Scan) (lexeme : String) (offset : Nat) :
    (s.inBytes content).treatment g lexeme ((Text.ofString content).byteAt offset) =
      s.treatment g lexeme offset := by
  have hentered : ((s.inBytes content).entered == some ((Text.ofString content).byteAt offset)) =
      (s.entered == some offset) := by
    rw [Bool.eq_iff_iff, beq_iff_eq, beq_iff_eq, inBytes]
    cases s.entered with
    | none => simp
    | some entered => simp [Text.byteAt_strictMono.injective.eq_iff]
  rw [treatment, treatment, hentered]
  rfl

/-- The next search starts at the offset of the position where it starts by positions. -/
theorem byteAt_add_advance (s : Scan) {start stop : Nat} (hle : start ≤ stop)
    (hstop : stop ≤ (Text.ofString content).size) (t : Treatment) :
    (Text.ofString content).byteAt start +
        s.advance g content ((Text.ofString content).slice start stop)
          ((Text.ofString content).byteAt start) t =
      (Text.ofString content).byteAt (s.treated g (Text.ofString content)
        ((Text.ofString content).slice start stop) start t).index := by
  have hlength : start + ((Text.ofString content).slice start stop).length = stop := by
    rw [Text.length_slice, Nat.min_eq_left hstop]
    omega
  have hbytes := Text.byteAt_add_slice hle hstop
  cases t with
  | opens child closer =>
      simp only [advance, treated, enter_eq, hlength]
      split
      · rw [Nat.add_zero]
      · exact hbytes
  | closes depth =>
      simp only [advance, treated, leave_eq, hlength]
      change _ = (Text.ofString content).byteAt (if (s.top g).flags.returnEnd then start else stop)
      split
      · rw [Nat.add_zero]
      · exact hbytes
  | stepsOver => exact (Text.byteAt_succ start).symm
  | passes =>
      simp only [advance, treated, settled, gather]
      by_cases hempty : (Text.ofString content).slice start stop = ""
      · rw [hempty]
        exact (Text.byteAt_succ start).symm
      · have hpos : ((Text.ofString content).slice start stop).length ≠ 0 :=
          mt String.length_eq_zero_iff.1 hempty
        rw [if_neg (mt String.isEmpty_iff.1 hempty), Nat.max_eq_right (by omega), hlength]
        exact hbytes

/-- Dealing with a lexeme in the text leads to the state by byte offsets of the state that it leads
to by positions. -/
theorem treatedInBytes_inBytes (s : Scan) {start stop : Nat} (hle : start ≤ stop)
    (hstop : stop ≤ (Text.ofString content).size) (t : Treatment) :
    (s.inBytes content).treatedInBytes g content ((Text.ofString content).slice start stop)
        ((Text.ofString content).byteAt start) t =
      (s.treated g (Text.ofString content) ((Text.ofString content).slice start stop) start
        t).inBytes content := by
  have hindex := byteAt_add_advance (g := g) (s.inBytes content) hle hstop t
  rw [treatedInBytes, hindex]
  cases t with
  | opens child closer =>
      rw [afterLexeme, settled_inBytes, enter_moveTo]
      rfl
  | closes depth =>
      -- Settling has forgotten where a mode was opened, and leaving keeps it forgotten.
      have hentered := entered_leave (g := g) s.settled depth
        ((Text.ofString content).slice start stop) start
      rw [afterLexeme, settled_inBytes, leave_moveTo]
      conv_rhs => rw [treated, inBytes, hentered]
      rfl
  | stepsOver =>
      rw [afterLexeme, Text.get?_charWidth]
      rfl
  | passes => rfl

theorem checkTreated_inBytes (s : Scan) (lexeme : String) (t : Treatment) :
    (s.inBytes content).checkTreated g ignoreIllegals lexeme t =
      s.checkTreated g ignoreIllegals lexeme t := by
  cases t <;> rfl

theorem dispatchInBytes_inBytes (s : Scan) {start stop : Nat} (hle : start ≤ stop)
    (hstop : stop ≤ (Text.ofString content).size) :
    (s.inBytes content).dispatchInBytes g ignoreIllegals content
        ((Text.ofString content).slice start stop) ((Text.ofString content).byteAt start) =
      inBytes content <$> s.dispatch g ignoreIllegals (Text.ofString content)
        ((Text.ofString content).slice start stop) start := by
  rw [dispatchInBytes, dispatch_eq, treatment_inBytes, map_bind]
  refine bind_congr fun t => ?_
  rw [checkTreated_inBytes, map_bind]
  refine bind_congr fun _ => ?_
  rw [treatedInBytes_inBytes s hle hstop]
  rfl

theorem takeLexeme_inBytes (s : Scan) (span : Span s.index (Text.ofString content).size) :
    (s.inBytes content).takeLexeme g ignoreIllegals content
        ((Text.ofString content).byteAt span.start) ((Text.ofString content).byteAt span.stop) =
      ((inBytes content <$>
        (s.gather ((Text.ofString content).slice s.index span.start)).dispatch g ignoreIllegals
          (Text.ofString content) ((Text.ofString content).slice span.start span.stop)
            span.start).mapError .fails) := by
  have hgather : ∀ before, (s.inBytes content).gather before =
    (s.gather before).inBytes content := fun _ => rfl
  have hinside := span.start_le_stop.trans span.stop_le_size
  simp only [takeLexeme, index_inBytes, hgather, Text.slice_byteAt span.low_le_start hinside,
    Text.slice_byteAt span.start_le_stop span.stop_le_size,
    ← dispatchInBytes_inBytes _ span.start_le_stop span.stop_le_size]
  rfl

/-- **One step** by byte offsets does not panic, and is the step by positions. -/
theorem stepInBytes?_inBytes (s : Scan) :
    (s.inBytes content).stepInBytes? g ignoreIllegals content =
      (Option.map (inBytes content) <$>
        s.step? g ignoreIllegals (Text.ofString content)).mapError .fails := by
  rw [stepInBytes?, step?, top_inBytes, index_inBytes]
  cases hterminators : (s.top g).terminators with
  | none =>
      dsimp only
      rw [ite_self]
      rfl
  | some terminators =>
      dsimp only
      rcases Nat.lt_or_ge (Text.ofString content).size s.index with hafter | hinside
      · -- The scan is after the end, where neither search starts.
        rw [if_pos (Text.utf8ByteSize_lt_byteAt.2 hafter), find?, findAfter?, if_pos hafter]
        rfl
      · rw [if_neg (mt Text.utf8ByteSize_lt_byteAt.1 (Nat.not_lt.2 hinside)),
          findInBytes_byteAt terminators hinside hinside, find?]
        cases terminators.findAfter? (Text.ofString content) s.index s.index with
        | error e => rfl
        | ok found =>
            cases found with
            | none => rfl
            | some span =>
                change some <$> (s.inBytes content).takeLexeme g ignoreIllegals content
                  ((Text.ofString content).byteAt span.start)
                  ((Text.ofString content).byteAt span.stop) = _
                rw [takeLexeme_inBytes]
                change _ = (Option.map (inBytes content) <$> some <$>
                  (s.gather ((Text.ofString content).slice s.index span.start)).dispatch g
                    ignoreIllegals (Text.ofString content)
                      ((Text.ofString content).slice span.start span.stop) span.start).mapError _
                cases (s.gather ((Text.ofString content).slice s.index span.start)).dispatch g
                    ignoreIllegals (Text.ofString content)
                      ((Text.ofString content).slice span.start span.stop) span.start with
                | error e => rfl
                | ok next => rfl

/-! ### Runs -/

variable (g ignoreIllegals content) in
/-- **A run** by byte offsets does not panic, and is the run by positions. -/
theorem runInBytes_inBytes (fuel : Nat) (s : Scan) :
    (s.inBytes content).runInBytes g ignoreIllegals content fuel =
      ((s.run g ignoreIllegals (Text.ofString content) fuel).1.inBytes content,
        (s.run g ignoreIllegals (Text.ofString content) fuel).2.map .fails) := by
  induction fuel generalizing s with
  | zero => rfl
  | succ fuel ih =>
      rw [runInBytes, run, stepInBytes?_inBytes]
      cases s.step? g ignoreIllegals (Text.ofString content) with
      | error fault => rfl
      | ok next =>
          cases next with
          | none => rfl
          | some next => exact ih next

theorem finishInBytes_inBytes (s : Scan) :
    (s.inBytes content).finishInBytes content =
      (s.finish (Text.ofString content)).moveTo (s.inBytes content).entered
        (s.inBytes content).index := by
  have hrest := flush_moveTo (s.inBytes content).entered (s.inBytes content).index
    (s.gather ((Text.ofString content).slice s.index (Text.ofString content).size))
  rw [finish, ← hrest, finishInBytes, index_inBytes, Text.get?_rest]
  rfl

end Scan

/-- **A scan** by byte offsets does not panic, and is the scan by positions. -/
theorem scanInBytes_eq (g : CompiledGrammar) (limit : StepLimit) (ignoreIllegals : Bool)
    (stack : Stack) (content : String) :
    scanInBytes g limit ignoreIllegals stack content =
      ((scan g limit ignoreIllegals stack content).events,
        (scan g limit ignoreIllegals stack content).outcome.mapError .fails) := by
  have hrun := Scan.runInBytes_inBytes g ignoreIllegals content
    (limit g (Text.ofString content) stack) (Scan.initial g stack)
  rw [Scan.inBytes_initial] at hrun
  rcases hlast : Scan.run g ignoreIllegals (Text.ofString content)
    (limit g (Text.ofString content) stack) (Scan.initial g stack) with ⟨s, fault⟩
  rw [hlast] at hrun
  rw [Scan.initial] at hlast
  cases fault with
  | some e =>
      simp only [scanInBytes, scan, hrun, hlast]
      rfl
  | none =>
      simp only [scanInBytes, scan, hrun, hlast, Option.map_none, Scan.finishInBytes_inBytes]
      rfl

end LexicalModes
