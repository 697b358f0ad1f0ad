import Mathlib.Logic.Relation
import LexicalModes.Highlight.Scan
import LexicalModes.Proofs.Outcomes

/-!
What a step of a scan can do, said once. A step finds the next terminator, gathers the text before
it, and deals with the lexeme in one of four ways (`Dispatched`): it opens a mode, closes modes,
steps over a character where it is stalled, or passes the lexeme on to the buffer. `Reaches` is any
number of steps, so what every one of the four ways keeps, a whole run keeps.
-/

namespace LexicalModes

open Pattern

theorem liftMatch_eq_ok {α : Type} {result : Except MatchError α} {a : α} :
    liftMatch result = .ok a ↔ result = .ok a := by
  cases result with
  | error e => simp [liftMatch, Except.mapError]
  | ok b => simp [liftMatch, Except.mapError]

namespace Scan

variable (g : CompiledGrammar) (ignoreIllegals : Bool) (text : Text)

/-- The state in which a scan of any text starts from the given open modes. -/
def initial (stack : Stack) : Scan :=
  { stack := stack, events := ((openClasses g stack).map Event.begins).reverse }

/-- Whether a mode was opened at the offset by an empty lexeme and nothing has moved since. -/
def Stalled (s : Scan) (lexeme : String) (offset : Nat) : Prop :=
  lexeme = "" ∧ s.entered = some offset

/-- The state in which the lexeme is dealt with: where the last mode was opened is forgotten. -/
def settled (s : Scan) : Scan := { s with entered := none }

/-- What becomes of the lexeme that begins a mode with these flags. -/
def takeBegin (s : Scan) (flags : ModeFlags) (lexeme : String) : Scan :=
  if flags.skip then s.gather lexeme
  else
    let s := (if flags.excludeBegin then s.gather lexeme else s).flush
    if flags.returnBegin || flags.excludeBegin then s else { s with buffer := lexeme }

/-- What becomes of the lexeme that ends modes when the innermost has these flags. -/
def takeEnd (s : Scan) (flags : ModeFlags) (lexeme : String) : Scan :=
  if flags.skip then s.gather lexeme
  else
    let s := (if flags.returnEnd || flags.excludeEnd then s else s.gather lexeme).flush
    if flags.excludeEnd then { s with buffer := lexeme } else s

/-- A begin runs on into the mode, stays before it, is read again, or is where the mode's text
starts. -/
theorem takeBegin_cases (s : Scan) (flags : ModeFlags) (lexeme : String) :
    (flags.skip = true ∧ s.takeBegin flags lexeme = s.gather lexeme) ∨
    (flags.skip = false ∧ flags.excludeBegin = true ∧
      s.takeBegin flags lexeme = (s.gather lexeme).flush) ∨
    (flags.skip = false ∧ flags.excludeBegin = false ∧ flags.returnBegin = true ∧
      s.takeBegin flags lexeme = s.flush) ∨
    (flags.skip = false ∧ flags.excludeBegin = false ∧ flags.returnBegin = false ∧
      s.takeBegin flags lexeme = { s.flush with buffer := lexeme }) := by
  unfold takeBegin
  cases flags.skip <;> cases flags.excludeBegin <;> cases flags.returnBegin <;> simp

/-- An end runs on after the mode, stays behind it, is read again, or is where the mode's text
ends. -/
theorem takeEnd_cases (s : Scan) (flags : ModeFlags) (lexeme : String) :
    (flags.skip = true ∧ s.takeEnd flags lexeme = s.gather lexeme) ∨
    (flags.skip = false ∧ flags.excludeEnd = true ∧
      s.takeEnd flags lexeme = { s.flush with buffer := lexeme }) ∨
    (flags.skip = false ∧ flags.excludeEnd = false ∧ flags.returnEnd = true ∧
      s.takeEnd flags lexeme = s.flush) ∨
    (flags.skip = false ∧ flags.excludeEnd = false ∧ flags.returnEnd = false ∧
      s.takeEnd flags lexeme = (s.gather lexeme).flush) := by
  unfold takeEnd
  cases flags.skip <;> cases flags.excludeEnd <;> cases flags.returnEnd <;> simp

/-- Close the frames from the innermost down to `depth`, and open what follows the outermost of
them. -/
def closeTo (s : Scan) (depth : Nat) : Scan :=
  let closed := closeModes g (s.stack.depth + 1 - depth) s
  match s.stack.get? depth with
  | some frame =>
    match (g.mode frame.mode).starts with
    | some following => closed.start g following (inheritedCloser g frame)
    | none => closed
  | none => closed

theorem enter_eq (s : Scan) (child : ModeIndex) (closer : Option Closer) (lexeme : String)
    (offset : Nat) :
    s.enter g child closer lexeme offset =
      { (s.takeBegin (g.mode child).flags lexeme).start g child closer with
        index := if (g.mode child).flags.returnBegin then offset else offset + lexeme.length
        entered := some offset } := rfl

theorem leave_eq (s : Scan) (depth : Nat) (lexeme : String) (offset : Nat) :
    s.leave g depth lexeme offset =
      { (s.takeEnd (s.top g).flags lexeme).closeTo g depth with
        index := if (s.top g).flags.returnEnd then offset else offset + lexeme.length } := rfl

/-- The states that dealing with a lexeme can lead to. -/
inductive Dispatched (s : Scan) (lexeme : String) (offset : Nat) : Scan → Prop
  | entered {child : ModeIndex} {closer : Option Closer} (hmoving : ¬s.Stalled lexeme offset)
      (hbegin : beginning? g lexeme (s.top g).contains = .ok (some (child, closer))) :
      Dispatched s lexeme offset (s.settled.enter g child closer lexeme offset)
  | left {depth : Nat} (hmoving : ¬s.Stalled lexeme offset)
      (hbegin : beginning? g lexeme (s.top g).contains = .ok none)
      (hend : ending? g lexeme s.stack.frames = .ok (some depth)) :
      Dispatched s lexeme offset (s.settled.leave g depth lexeme offset)
  | steppedOver (hstalled : s.Stalled lexeme offset) :
      Dispatched s lexeme offset (s.settled.stepOver text offset)
  | passed (hbegin : beginning? g lexeme (s.top g).contains = .ok none)
      (hend : ending? g lexeme s.stack.frames = .ok none)
      (hlegal : s.checkLegal g ignoreIllegals lexeme = .ok ()) :
      Dispatched s lexeme offset
        { s.settled.gather lexeme with index := offset + max 1 lexeme.length }

variable {g ignoreIllegals text}

theorem stalled_iff {s : Scan} {lexeme : String} {offset : Nat} :
    (lexeme.isEmpty && s.entered == some offset) = true ↔ s.Stalled lexeme offset := by
  rw [Bool.and_eq_true, beq_iff_eq, String.isEmpty_iff]
  rfl

theorem dispatch_eq_ok {s next : Scan} {lexeme : String} {offset : Nat}
    (h : s.dispatch g ignoreIllegals text lexeme offset = .ok next) :
    Dispatched g ignoreIllegals text s lexeme offset next := by
  rw [dispatch] at h
  obtain ⟨begun, hbegin, h⟩ := bind_eq_ok.1 h
  rw [liftMatch_eq_ok] at hbegin
  change beginning? g lexeme (s.top g).contains = .ok begun at hbegin
  cases begun with
  | some found =>
      obtain ⟨child, closer⟩ := found
      by_cases hstalled : s.Stalled lexeme offset
      · simp only [if_pos (stalled_iff.2 hstalled)] at h
        cases h
        exact .steppedOver hstalled
      · simp only [if_neg (mt stalled_iff.1 hstalled)] at h
        cases h
        exact .entered hstalled hbegin
  | none =>
      obtain ⟨ended, hend, h⟩ := bind_eq_ok.1 h
      rw [liftMatch_eq_ok] at hend
      change ending? g lexeme s.stack.frames = .ok ended at hend
      cases ended with
      | some depth =>
          by_cases hstalled : s.Stalled lexeme offset
          · simp only [if_pos (stalled_iff.2 hstalled)] at h
            cases h
            exact .steppedOver hstalled
          · simp only [if_neg (mt stalled_iff.1 hstalled)] at h
            cases h
            exact .left hstalled hbegin hend
      | none =>
          obtain ⟨_, hlegal, h⟩ := bind_eq_ok.1 h
          cases h
          exact .passed hbegin hend hlegal

/-- A step finds the next terminator, gathers the text before it and deals with the lexeme. -/
theorem step?_eq_some {s next : Scan} (h : s.step? g ignoreIllegals text = .ok (some next)) :
    ∃ (terminators : Pattern) (span : Span s.index text.size),
      (s.top g).terminators = some terminators ∧
      terminators.find? text s.index = .ok (some span) ∧
      Dispatched g ignoreIllegals text (s.gather (text.slice s.index span.start))
        (text.slice span.start span.stop) span.start next := by
  rw [step?] at h
  split at h
  case h_1 => cases h
  case h_2 terminators hterminators =>
    obtain ⟨found, hfind, h⟩ := bind_eq_ok.1 h
    rw [liftMatch_eq_ok] at hfind
    cases found with
    | none => cases h
    | some span =>
        obtain ⟨dispatched, hdispatch, hnext⟩ := bind_eq_ok.1 h
        cases hnext
        exact ⟨terminators, span, hterminators, hfind, dispatch_eq_ok hdispatch⟩

variable (g ignoreIllegals text) in
/-- One step leads from the first state to the second. -/
def Next (s next : Scan) : Prop := s.step? g ignoreIllegals text = .ok (some next)

variable (g ignoreIllegals text) in
/-- Steps lead from the first state to the second. -/
def Reaches : Scan → Scan → Prop := Relation.ReflTransGen (Next g ignoreIllegals text)

/-- What every step from a reached state keeps is kept along a run. -/
theorem Reaches.keeps {P : Scan → Prop} {first s : Scan}
    (hreaches : Reaches g ignoreIllegals text first s) (hfirst : P first)
    (hstep : ∀ s next, Reaches g ignoreIllegals text first s → Next g ignoreIllegals text s next →
      P s → P next) : P s := by
  induction hreaches with
  | refl => exact hfirst
  | tail hbefore hnext ih => exact hstep _ _ hbefore hnext ih

theorem reaches_run (fuel : Nat) (s : Scan) :
    Reaches g ignoreIllegals text s (run g ignoreIllegals text fuel s).1 := by
  induction fuel generalizing s with
  | zero => exact Relation.ReflTransGen.refl
  | succ fuel ih =>
      rw [run]
      split
      case h_1 next hstep => exact Relation.ReflTransGen.head hstep (ih next)
      case h_2 => exact Relation.ReflTransGen.refl
      case h_3 => exact Relation.ReflTransGen.refl

@[simp] theorem stack_flush (s : Scan) : s.flush.stack = s.stack := by
  rw [flush]
  split <;> rfl

@[simp] theorem stack_finish (s : Scan) (text : Text) : (s.finish text).stack = s.stack :=
  stack_flush _

end Scan

/-- A scan that comes to its end is a run, the rest of the text, and the ends of the regions still
open. -/
theorem scan_eq_ok {g : CompiledGrammar} {limit : StepLimit} {ignoreIllegals : Bool}
    {stack last : Stack} {content : String}
    (h : (scan g limit ignoreIllegals stack content).outcome = .ok last) :
    ∃ s, Scan.Reaches g ignoreIllegals (Text.ofString content) (Scan.initial g stack) s ∧
      last = s.stack ∧
      (scan g limit ignoreIllegals stack content).events =
        (s.finish (Text.ofString content)).events.reverse ++
          (Scan.openClasses g s.stack).reverse.map Event.ends := by
  have hreaches : Scan.Reaches g ignoreIllegals (Text.ofString content) (Scan.initial g stack)
      (Scan.run g ignoreIllegals (Text.ofString content)
        (limit g (Text.ofString content) stack) (Scan.initial g stack)).1 :=
    Scan.reaches_run _ _
  rcases hrun : Scan.run g ignoreIllegals (Text.ofString content)
    (limit g (Text.ofString content) stack) (Scan.initial g stack) with ⟨s, fault⟩
  rw [hrun] at hreaches
  simp only [Scan.initial] at hrun
  cases fault with
  | some e =>
      simp only [scan, hrun] at h
      cases h
  | none =>
      simp only [scan, hrun] at h ⊢
      cases h
      exact ⟨s, hreaches, Scan.stack_finish s _, by rw [Scan.stack_finish]⟩

end LexicalModes
