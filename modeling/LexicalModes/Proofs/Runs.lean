import LexicalModes.Proofs.ScanSteps

/-!
Runs with what their steps did. Whether a lexeme opens a mode, closes modes, is stepped over or
means nothing is decided before the state changes and without a look at what is illegal
(`Scan.treatment`); only a lexeme that means nothing is then checked (`Scan.dispatch_eq`). A `Step`
keeps the decision next to the state it was made in, and `Run` is the list of the steps from one
state to another, so that what a scan did can be summed up over its steps.
-/

namespace LexicalModes

open Pattern

theorem liftMatch_bind {α β : Type} (x : Except MatchError α) (f : α → Except MatchError β) :
    liftMatch (x >>= f) = liftMatch x >>= fun a => liftMatch (f a) := by
  cases x with
  | error e => rfl
  | ok a => rfl

namespace Scan

/-- How a lexeme is dealt with. -/
inductive Treatment
  /-- It opens a mode. -/
  | opens (child : ModeIndex) (closer : Option Closer)
  /-- It closes the frames from the innermost down to this depth. -/
  | closes (depth : Nat)
  /-- It would open or close modes without moving on, so a character is stepped over instead. -/
  | stepsOver
  /-- It means nothing. -/
  | passes

variable (g : CompiledGrammar) (ignoreIllegals : Bool) (text : Text)

/-- How the lexeme at the offset will be dealt with. -/
def treatment (s : Scan) (lexeme : String) (offset : Nat) : Except MatchError Treatment := do
  let stalled := lexeme.isEmpty && s.entered == some offset
  match ← beginning? g lexeme (s.top g).contains with
  | some (child, closer) => return if stalled then .stepsOver else .opens child closer
  | none =>
    match ← ending? g lexeme s.stack.frames with
    | some depth => return if stalled then .stepsOver else .closes depth
    | none => return .passes

/-- The state after the lexeme has been dealt with. -/
def treated (s : Scan) (lexeme : String) (offset : Nat) : Treatment → Scan
  | .opens child closer => s.settled.enter g child closer lexeme offset
  | .closes depth => s.settled.leave g depth lexeme offset
  | .stepsOver => s.settled.stepOver text offset
  | .passes => { s.settled.gather lexeme with index := offset + max 1 lexeme.length }

/-- Only a lexeme that means nothing can be illegal. -/
def checkTreated (s : Scan) (lexeme : String) : Treatment → Except HighlightFault Unit
  | .passes => s.checkLegal g ignoreIllegals lexeme
  | _ => .ok ()

/-- Dealing with a lexeme is a decision, a check, and a change of the state. -/
theorem dispatch_eq (s : Scan) (lexeme : String) (offset : Nat) :
    s.dispatch g ignoreIllegals text lexeme offset = do
      let t ← liftMatch (s.treatment g lexeme offset)
      s.checkTreated g ignoreIllegals lexeme t
      return s.treated g text lexeme offset t := by
  rw [dispatch, treatment, liftMatch_bind, bind_assoc]
  refine bind_congr fun begun => ?_
  cases begun with
  | some found =>
      obtain ⟨child, closer⟩ := found
      by_cases hstalled : (lexeme.isEmpty && s.entered == some offset) = true
      · simp only [if_pos hstalled]
        rfl
      · simp only [if_neg hstalled]
        rfl
  | none =>
      rw [liftMatch_bind, bind_assoc]
      refine bind_congr fun ended => ?_
      cases ended with
      | some depth =>
          by_cases hstalled : (lexeme.isEmpty && s.entered == some offset) = true
          · simp only [if_pos hstalled]
            rfl
          · simp only [if_neg hstalled]
            rfl
      | none => rfl

/-- A step of a scan: the state it starts from, the lexeme and its offset, and how the lexeme is
dealt with. -/
structure Step where
  state : Scan
  lexeme : String
  offset : Nat
  treatment : Treatment

namespace Step

/-- The text between where the search started and the lexeme. -/
def before (step : Step) : String := text.slice step.state.index step.offset

/-- The state in which the lexeme is dealt with. -/
def gathered (step : Step) : Scan := step.state.gather (step.before text)

/-- The state that the step leads to. -/
def result (step : Step) : Scan :=
  (step.gathered text).treated g text step.lexeme step.offset step.treatment

/-- The scan takes this step: the lexeme is the next terminator, it is dealt with in this way, and
it is not illegal. -/
structure Taken (step : Step) : Prop where
  found : ∃ (terminators : Pattern) (span : Span step.state.index text.size),
    (step.state.top g).terminators = some terminators ∧
    terminators.find? text step.state.index = .ok (some span) ∧
    step.lexeme = text.slice span.start span.stop ∧ step.offset = span.start
  treats : step.state.treatment g step.lexeme step.offset = .ok step.treatment
  legal : step.state.checkTreated g ignoreIllegals step.lexeme step.treatment = .ok ()

end Step

variable {g ignoreIllegals text}

/-- The next state of a scan is the result of the step it takes. -/
theorem next_iff_exists_step {s next : Scan} :
    Next g ignoreIllegals text s next ↔
      ∃ step : Step, step.state = s ∧ step.Taken g ignoreIllegals text ∧
        step.result g text = next := by
  constructor
  · intro hnext
    rw [Next, step?] at hnext
    split at hnext
    case h_1 => cases hnext
    case h_2 terminators hterminators =>
      obtain ⟨found, hfind, hnext⟩ := bind_eq_ok.1 hnext
      rw [liftMatch_eq_ok] at hfind
      cases found with
      | none => cases hnext
      | some span =>
          obtain ⟨result, hdispatch, hresult⟩ := map_eq_ok.1 hnext
          cases hresult
          rw [dispatch_eq] at hdispatch
          obtain ⟨t, ht, hdispatch⟩ := bind_eq_ok.1 hdispatch
          obtain ⟨_, hlegal, hdispatch⟩ := bind_eq_ok.1 hdispatch
          rw [liftMatch_eq_ok] at ht
          exact ⟨⟨s, text.slice span.start span.stop, span.start, t⟩, rfl,
            ⟨⟨terminators, span, hterminators, hfind, rfl, rfl⟩, ht, by cases t <;> exact hlegal⟩,
            pure_eq_ok.1 hdispatch⟩
  · rintro ⟨step, rfl, htaken, rfl⟩
    obtain ⟨terminators, span, hterminators, hfind, hlexeme, hoffset⟩ := htaken.found
    rw [Next, step?, hterminators]
    refine bind_eq_ok.2 ⟨some span, liftMatch_eq_ok.2 hfind, map_eq_ok.2 ⟨_, ?_, rfl⟩⟩
    rw [← hlexeme, ← hoffset, dispatch_eq]
    refine bind_eq_ok.2 ⟨step.treatment, liftMatch_eq_ok.2 htaken.treats, ?_⟩
    exact bind_eq_ok.2 ⟨(), htaken.legal, rfl⟩

variable (g ignoreIllegals text) in
/-- The steps that lead from the first state to the last, in order. -/
inductive Run (first : Scan) : List Step → Scan → Prop
  | nil : Run first [] first
  | snoc {steps : List Step} {step : Step} (hrun : Run first steps step.state)
      (htaken : step.Taken g ignoreIllegals text) :
      Run first (steps ++ [step]) (step.result g text)

theorem Run.reaches {first last : Scan} {steps : List Step}
    (h : Run g ignoreIllegals text first steps last) :
    Reaches g ignoreIllegals text first last := by
  induction h with
  | nil => exact .refl
  | snoc _ htaken ih => exact ih.tail (next_iff_exists_step.2 ⟨_, rfl, htaken, rfl⟩)

theorem exists_run_of_reaches {first last : Scan}
    (h : Reaches g ignoreIllegals text first last) :
    ∃ steps, Run g ignoreIllegals text first steps last := by
  induction h with
  | refl => exact ⟨[], .nil⟩
  | tail _ hnext ih =>
      obtain ⟨steps, hrun⟩ := ih
      obtain ⟨step, rfl, htaken, rfl⟩ := next_iff_exists_step.1 hnext
      exact ⟨steps ++ [step], hrun.snoc htaken⟩

variable (g ignoreIllegals text) in
/-- The step that a scan takes from the state, if it takes one. -/
def stepFrom? (s : Scan) : Option Step := do
  let terminators ← (s.top g).terminators
  let span ← (terminators.find? text s.index).toOption.join
  let lexeme := text.slice span.start span.stop
  let treatment ← (s.treatment g lexeme span.start).toOption
  if (s.checkTreated g ignoreIllegals lexeme treatment).isOk then
    some ⟨s, lexeme, span.start, treatment⟩
  else none

theorem taken_of_stepFrom? {s : Scan} {step : Step}
    (h : stepFrom? g ignoreIllegals text s = some step) :
    step.state = s ∧ step.Taken g ignoreIllegals text := by
  obtain ⟨terminators, hterminators, h⟩ := Option.bind_eq_some_iff.1 h
  obtain ⟨span, hspan, h⟩ := Option.bind_eq_some_iff.1 h
  obtain ⟨treatment, htreatment, h⟩ := Option.bind_eq_some_iff.1 h
  have hfind := toOption_eq_some.1 (Option.join_eq_some_iff.1 hspan)
  rw [Option.ite_none_right_eq_some] at h
  obtain ⟨hlegal, h⟩ := h
  obtain ⟨_, hlegal⟩ := exists_of_isOk hlegal
  cases h
  exact ⟨rfl, ⟨terminators, span, hterminators, hfind, rfl, rfl⟩,
    toOption_eq_some.1 htreatment, hlegal⟩

variable (g ignoreIllegals text) in
/-- The steps that a scan takes from the state, at most so many, and the state that they lead to. -/
def stepsFrom (first : Scan) : Nat → List Step × Scan
  | 0 => ([], first)
  | count + 1 =>
    let (steps, s) := stepsFrom first count
    match stepFrom? g ignoreIllegals text s with
    | some step => (steps ++ [step], step.result g text)
    | none => (steps, s)

theorem run_stepsFrom (first : Scan) (count : Nat) :
    Run g ignoreIllegals text first (stepsFrom g ignoreIllegals text first count).1
      (stepsFrom g ignoreIllegals text first count).2 := by
  induction count with
  | zero => exact .nil
  | succ count ih =>
      rw [stepsFrom]
      dsimp only
      split
      case h_1 step hstep =>
        obtain ⟨hstate, htaken⟩ := taken_of_stepFrom? hstep
        rw [← hstate] at ih
        exact ih.snoc htaken
      case h_2 => exact ih

/-! ### Events of a run -/

/-- The scan has gone on from these events, the latest of which comes first. -/
def GoesOn (events : List Event) (s : Scan) : Prop := events <:+ s.events

variable {events : List Event}

theorem GoesOn.moveTo {s : Scan} (h : s.GoesOn events) (buffer : String) (entered : Option Nat)
    (index : Nat) :
    GoesOn events { s with buffer := buffer, entered := entered, index := index } := h

theorem GoesOn.flush {s : Scan} (h : s.GoesOn events) : s.flush.GoesOn events := by
  rw [Scan.flush]
  split
  · exact h
  · exact h.trans (List.suffix_cons _ _)

theorem GoesOn.start {s : Scan} (h : s.GoesOn events) (mode : ModeIndex)
    (closer : Option Closer) : (s.start g mode closer).GoesOn events :=
  List.IsSuffix.trans h (List.suffix_append _ _)

theorem GoesOn.closeModes {s : Scan} (h : s.GoesOn events) (count : Nat) :
    (closeModes g count s).GoesOn events := by
  induction count generalizing s with
  | zero => exact h
  | succ count ih =>
      rw [Scan.closeModes]
      split
      case h_1 => exact h
      case h_2 frame below hframes =>
        apply ih
        exact List.IsSuffix.trans h (List.suffix_append _ _)

theorem GoesOn.takeBegin {s : Scan} (h : s.GoesOn events) (flags : ModeFlags) (lexeme : String) :
    (s.takeBegin flags lexeme).GoesOn events := by
  rcases takeBegin_cases s flags lexeme with ⟨-, h'⟩ | ⟨-, -, h'⟩ | ⟨-, -, -, h'⟩ | ⟨-, -, -, h'⟩
  · rw [h']
    exact h.moveTo _ _ _
  · rw [h']
    exact (h.moveTo _ _ _).flush
  · rw [h']
    exact h.flush
  · rw [h']
    exact h.flush.moveTo _ _ _

theorem GoesOn.takeEnd {s : Scan} (h : s.GoesOn events) (flags : ModeFlags) (lexeme : String) :
    (s.takeEnd flags lexeme).GoesOn events := by
  rcases takeEnd_cases s flags lexeme with ⟨-, h'⟩ | ⟨-, -, h'⟩ | ⟨-, -, -, h'⟩ | ⟨-, -, -, h'⟩
  · rw [h']
    exact h.moveTo _ _ _
  · rw [h']
    exact h.flush.moveTo _ _ _
  · rw [h']
    exact h.flush
  · rw [h']
    exact (h.moveTo _ _ _).flush

theorem GoesOn.closeTo {s : Scan} (h : s.GoesOn events) (depth : Nat) :
    (s.closeTo g depth).GoesOn events := by
  rw [Scan.closeTo]
  split
  · split
    · exact (h.closeModes _).start _ _
    · exact h.closeModes _
  · exact h.closeModes _

/-- **One step** keeps the events before it. -/
theorem GoesOn.next {s next : Scan} (h : s.GoesOn events)
    (hnext : Next g ignoreIllegals text s next) : next.GoesOn events := by
  obtain ⟨terminators, span, -, -, hdispatched⟩ := step?_eq_some hnext
  have hbefore : (s.gather (text.slice s.index span.start)).settled.GoesOn events := h
  cases hdispatched with
  | @entered child closer hmoving hbegin =>
      exact ((hbefore.takeBegin (g.mode child).flags _).start child closer).moveTo _ _ _
  | left hmoving hbegin hend =>
      exact ((hbefore.takeEnd _ _).closeTo _).moveTo _ _ _
  | steppedOver hstalled => exact hbefore
  | passed hbegin hend hlegal => exact hbefore

/-- **A run** goes on from the events that it starts with. -/
theorem goesOn_of_reaches {first s : Scan} (h : Reaches g ignoreIllegals text first s) :
    s.GoesOn first.events :=
  h.keeps (P := fun s => s.GoesOn first.events) List.suffix_rfl fun _ _ _ hnext hs => hs.next hnext

/-! ### The end of a run -/

/-- A run that comes to its end has no next step. -/
theorem step?_of_run_none {fuel : Nat} {s : Scan}
    (h : (run g ignoreIllegals text fuel s).2 = none) :
    (run g ignoreIllegals text fuel s).1.step? g ignoreIllegals text = .ok none := by
  induction fuel generalizing s with
  | zero => cases h
  | succ fuel ih =>
      rw [run] at h ⊢
      split at h
      case h_1 next hnext => exact ih h
      case h_2 hdone => exact hdone
      case h_3 => cases h

/-- A run that fails has used up its steps or has come to a state whose step fails. -/
theorem step?_of_run_some {fuel : Nat} {s : Scan} {e : HighlightError}
    (h : (run g ignoreIllegals text fuel s).2 = some e) :
    e = .endless ∨ ∃ fault, e = .failed fault ∧
      (run g ignoreIllegals text fuel s).1.step? g ignoreIllegals text = .error fault := by
  induction fuel generalizing s with
  | zero =>
      cases h
      exact .inl rfl
  | succ fuel ih =>
      rw [run] at h ⊢
      split at h
      case h_1 next hnext => exact ih h
      case h_2 => cases h
      case h_3 fault hfault =>
        cases h
        exact .inr ⟨fault, rfl, hfault⟩

end Scan

/-- A scan is a run to a state that has no next step, then the rest of the text and the ends of the
regions still open; or it is a run to a state where it fails or is stopped. -/
theorem exists_run_of_scan (g : CompiledGrammar) (limit : StepLimit) (ignoreIllegals : Bool)
    (stack : Stack) (content : String) :
    ∃ steps s, Scan.Run g ignoreIllegals (Text.ofString content) (Scan.initial g stack) steps s ∧
      ((s.step? g ignoreIllegals (Text.ofString content) = .ok none ∧
          scan g limit ignoreIllegals stack content =
            ⟨(s.finish (Text.ofString content)).events.reverse ++
              (Scan.openClasses g s.stack).reverse.map Event.ends, .ok s.stack⟩) ∨
        ∃ e, (e = .endless ∨ ∃ fault, e = .failed fault ∧
            s.step? g ignoreIllegals (Text.ofString content) = .error fault) ∧
          scan g limit ignoreIllegals stack content = ⟨s.events.reverse, .error e⟩) := by
  have hreaches : Scan.Reaches g ignoreIllegals (Text.ofString content) (Scan.initial g stack)
      (Scan.run g ignoreIllegals (Text.ofString content)
        (limit g (Text.ofString content) stack) (Scan.initial g stack)).1 :=
    Scan.reaches_run _ _
  obtain ⟨steps, hrun⟩ := Scan.exists_run_of_reaches hreaches
  refine ⟨steps, _, hrun, ?_⟩
  rcases hlast : Scan.run g ignoreIllegals (Text.ofString content)
    (limit g (Text.ofString content) stack) (Scan.initial g stack) with ⟨s, fault⟩
  have houtcome : (Scan.run g ignoreIllegals (Text.ofString content)
      (limit g (Text.ofString content) stack) (Scan.initial g stack)).2 = fault := by
    rw [hlast]
  rw [Scan.initial] at hlast
  cases fault with
  | none =>
      have hdone := Scan.step?_of_run_none houtcome
      rw [Scan.initial, hlast] at hdone
      refine .inl ⟨hdone, ?_⟩
      simp only [scan, hlast, Scan.stack_finish]
  | some e =>
      have hfault := Scan.step?_of_run_some houtcome
      rw [Scan.initial, hlast] at hfault
      refine .inr ⟨e, hfault, ?_⟩
      simp only [scan, hlast]

end LexicalModes
