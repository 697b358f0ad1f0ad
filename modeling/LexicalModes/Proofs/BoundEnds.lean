import Mathlib.Data.List.Forall2
import LexicalModes.Proofs.Frames
import LexicalModes.Proofs.Runs

/-!
Frames that end with the text they began with. How a frame came to be is not kept on the stack, so
it is kept beside a run (`Arrival`): a lexeme began the mode of the frame, or the mode follows that
of a frame that ended. A frame of a mode that ends as it began is bound to the text its begin
matched, and hands that text on when another mode follows (`Arrival.Bound`). Every step keeps the
frames bound to these texts (`Scan.Step.suits_result`), so a whole chain of calls does, and a bound
frame ends with the lexemes that start with its own text and with no others.
-/

namespace LexicalModes

open Pattern

/-- How an open frame came to be. -/
inductive Arrival
  /-- This lexeme began the mode. -/
  | begun (mode : ModeIndex) (lexeme : String)
  /-- The mode follows that of a frame that ended. -/
  | followed (mode : ModeIndex) (earlier : Arrival)
  deriving DecidableEq

namespace Arrival

/-- The mode of the frame. -/
def mode : Arrival → ModeIndex
  | .begun mode _ => mode
  | .followed mode _ => mode

/-- The frame is bound to a text: the one that its begin matched, if the mode ends as it began, or
the one that the frame before was bound to, if the mode of that one does. -/
inductive Bound (g : CompiledGrammar) : Arrival → String → Prop
  | begun {mode : ModeIndex} {lexeme content : String} {begins : SourcedPattern}
      (hsame : (g.mode mode).flags.endSameAsBegin = true)
      (hbegins : (g.mode mode).begins = some begins)
      (hmatch : begins.pattern.matchStart? lexeme = .ok (some content)) :
      Bound g (.begun mode lexeme) content
  | followed {mode : ModeIndex} {earlier : Arrival} {content : String}
      (hsame : (g.mode earlier.mode).flags.endSameAsBegin = true)
      (hearlier : Bound g earlier content) : Bound g (.followed mode earlier) content

end Arrival

namespace Scan

variable {g : CompiledGrammar} {ignoreIllegals : Bool} {text : Text}

/-! ### The histories of frames -/

/-- How the frames after a step came to be, given the same of those before it. -/
def Step.arrivals (g : CompiledGrammar) (before : List Arrival) (step : Step) : List Arrival :=
  match step.treatment with
  | .opens child _ => .begun child step.lexeme :: before
  | .closes depth =>
    match before.drop (before.length - depth) with
    | [] => []
    | ended :: outer =>
      ((g.mode ended.mode).starts.map fun following => .followed following ended).toList ++ outer
  | .stepsOver | .passes => before

/-- How the frames after steps came to be. -/
def arrivalsAfter (g : CompiledGrammar) (steps : List Step) (before : List Arrival) :
    List Arrival :=
  steps.foldl (Step.arrivals g) before

variable (g) in
/-- The frame is the one that came to be so, and has the end that it is bound to. -/
structure Suits (arrival : Arrival) (frame : Frame) : Prop where
  mode : frame.mode = arrival.mode
  bound : ∀ mode lexeme, arrival = .begun mode lexeme →
    (g.mode mode).flags.endSameAsBegin = true → ∃ content, arrival.Bound g content
  closer : ∀ content, arrival.Bound g content → frame.closer = some (.text content)

/-- What a lexeme begins is bound to the text that the begin matches, if it ends as it began. -/
theorem exists_match_of_beginning? {lexeme : String} {children : List ModeIndex}
    {child : ModeIndex} {closer : Option Closer}
    (h : beginning? g lexeme children = .ok (some (child, closer))) :
    ∃ begins content, (g.mode child).begins = some begins ∧
      begins.pattern.matchStart? lexeme = .ok (some content) ∧
      closer = if (g.mode child).flags.endSameAsBegin then some (.text content) else none := by
  induction children with
  | nil => cases h
  | cons first rest ih =>
      rw [beginning?] at h
      cases hbegins : (g.mode first).begins with
      | none =>
          simp only [hbegins] at h
          exact ih h
      | some b =>
          simp only [hbegins] at h
          obtain ⟨found, hfound, h⟩ := bind_eq_ok.1 h
          cases found with
          | none => exact ih h
          | some content =>
              cases h
              exact ⟨b, content, hbegins, hfound, rfl⟩

theorem beginning?_of_treatment {s : Scan} {lexeme : String} {offset : Nat} {child : ModeIndex}
    {closer : Option Closer} (h : s.treatment g lexeme offset = .ok (.opens child closer)) :
    beginning? g lexeme (s.top g).contains = .ok (some (child, closer)) := by
  obtain ⟨begun, hbegin, h⟩ := bind_eq_ok.1 h
  cases begun with
  | some found =>
      have h := pure_eq_ok.1 h
      split at h
      · cases h
      · cases h
        exact hbegin
  | none =>
      obtain ⟨ended, -, h⟩ := bind_eq_ok.1 h
      cases ended with
      | some depth =>
          have h := pure_eq_ok.1 h
          split at h <;> cases h
      | none => cases h

theorem ending?_of_treatment {s : Scan} {lexeme : String} {offset depth : Nat}
    (h : s.treatment g lexeme offset = .ok (.closes depth)) :
    ending? g lexeme s.stack.frames = .ok (some depth) := by
  obtain ⟨begun, hbegin, h⟩ := bind_eq_ok.1 h
  cases begun with
  | some found =>
      have h := pure_eq_ok.1 h
      split at h <;> cases h
  | none =>
      obtain ⟨ended, hend, h⟩ := bind_eq_ok.1 h
      cases ended with
      | some found =>
          have h := pure_eq_ok.1 h
          split at h
          · cases h
          · cases h
            exact hend
      | none => cases h

/-- A frame that ends hands on the text it is bound to, if its mode ends as it began. -/
theorem Suits.follower {ended : Arrival} {frame : Frame} (h : Suits g ended frame)
    (following : ModeIndex) :
    Suits g (.followed following ended) ⟨following, inheritedCloser g frame⟩ := by
  refine ⟨rfl, nofun, ?_⟩
  rintro content (_ | ⟨hsame, hbound⟩)
  rw [inheritedCloser, h.mode, if_pos hsame, h.closer content hbound]
  rfl

/-- The frames that follow have their histories. -/
theorem Suits.followers {ended : Arrival} {frame : Frame} (h : Suits g ended frame) :
    List.Forall₂ (Suits g)
      ((g.mode ended.mode).starts.map fun following => Arrival.followed following ended).toList
      (followers g frame) := by
  rw [Scan.followers, h.mode]
  cases (g.mode ended.mode).starts with
  | none => exact .nil
  | some following => exact .cons (h.follower following) .nil

/-- **One step** keeps every frame bound to the text it came to be with. -/
theorem Step.suits_result {step : Step} (htaken : step.Taken g ignoreIllegals text)
    {before : List Arrival} (h : List.Forall₂ (Suits g) before step.state.stack.frames) :
    List.Forall₂ (Suits g) (step.arrivals g before) (step.result g text).stack.frames := by
  have htreats := htaken.treats
  rw [Step.arrivals, Step.result]
  cases ht : step.treatment with
  | opens child closer =>
      rw [ht] at htreats
      obtain ⟨begins, content, hbegins, hmatch, hcloser⟩ :=
        exists_match_of_beginning? (beginning?_of_treatment htreats)
      simp only [treated, frames_enter]
      refine .cons ⟨rfl, ?_, ?_⟩ h
      · rintro _ _ ⟨⟩ hsame
        exact ⟨content, .begun hsame hbegins hmatch⟩
      · rintro other (⟨hsame, hbegins', hmatch'⟩ | _)
        cases hbegins.symm.trans hbegins'
        cases hmatch.symm.trans hmatch'
        rw [hcloser, if_pos hsame]
  | closes depth =>
      rw [ht] at htreats
      obtain ⟨inner, frame, below, hframes, rfl⟩ :=
        exists_of_ending? (ending?_of_treatment htreats)
      -- The histories of the frames above the one that ends are dropped with their frames.
      have hdrop : step.state.stack.frames.drop (before.length - (below.length + 1)) =
          frame :: below := by
        rw [h.length_eq, hframes, List.length_append, List.length_cons, Nat.add_sub_cancel_right,
          List.drop_left]
      have hrest := List.forall₂_drop (before.length - (below.length + 1)) h
      rw [hdrop] at hrest
      simp only [treated]
      rw [frames_leave (s := (step.gathered text).settled) hframes]
      cases hbefore : before.drop (before.length - (below.length + 1)) with
      | nil =>
          rw [hbefore] at hrest
          cases hrest
      | cons ended outer =>
          rw [hbefore] at hrest
          obtain ⟨hended, houter⟩ := List.forall₂_cons.1 hrest
          exact List.rel_append hended.followers houter
  | stepsOver => exact h
  | passes => exact h

/-- **A run** keeps every frame bound to the text it came to be with. -/
theorem Run.suits {first last : Scan} {steps : List Step}
    (h : Run g ignoreIllegals text first steps last) {before : List Arrival}
    (hfirst : List.Forall₂ (Suits g) before first.stack.frames) :
    List.Forall₂ (Suits g) (arrivalsAfter g steps before) last.stack.frames := by
  induction h with
  | nil => exact hfirst
  | snoc _ htaken ih =>
      rw [arrivalsAfter, List.foldl_append]
      exact Step.suits_result htaken ih

variable (g) in
/-- The frame ends with the lexemes that start with the text, letter by letter, and no others. -/
def EndsWithText (frame : Frame) (content : String) : Prop :=
  ∀ lexeme, endsFrame g lexeme frame = .ok (content.toList.isPrefixOf lexeme.toList)

theorem Suits.endsWithText {arrival : Arrival} {frame : Frame} (h : Suits g arrival frame)
    {content : String} (hbound : arrival.Bound g content) : EndsWithText g frame content := by
  intro lexeme
  rw [endsFrame.eq_def, h.closer content hbound]
  rfl

/-- Of two texts that differ, one does not start with the other. -/
theorem isPrefixOf_of_ne {a b : String} (hne : a ≠ b) :
    a.toList.isPrefixOf b.toList = false ∨ b.toList.isPrefixOf a.toList = false := by
  by_contra hboth
  rw [not_or, Bool.not_eq_false, Bool.not_eq_false, List.isPrefixOf_iff_prefix,
    List.isPrefixOf_iff_prefix] at hboth
  exact hne (String.toList_injective
    (hboth.1.eq_of_length (Nat.le_antisymm hboth.1.length_le hboth.2.length_le)))

/-- Frames that end with different texts are told apart by one of the texts. -/
theorem EndsWithText.exists_ne {first second : Frame} {a b : String}
    (hfirst : EndsWithText g first a) (hsecond : EndsWithText g second b) (hne : a ≠ b) :
    ∃ lexeme, endsFrame g lexeme first ≠ endsFrame g lexeme second := by
  have hself : ∀ text : String, text.toList.isPrefixOf text.toList = true :=
    fun text => List.isPrefixOf_iff_prefix.2 (List.prefix_refl _)
  rcases isPrefixOf_of_ne hne with hnot | hnot
  · refine ⟨b, ?_⟩
    rw [hfirst b, hsecond b, hnot, hself]
    simp
  · refine ⟨a, ?_⟩
    rw [hfirst a, hsecond a, hnot, hself]
    simp

end Scan

/-! ### Chains of calls -/

/-- The stacks that the calls of a chain on a language can start from, with how their frames came to
be. -/
inductive CompiledGrammar.ArrivesAt (g : CompiledGrammar) : List Arrival → Stack → Prop
  | root : ArrivesAt g [] .empty
  | after {arrivals : List Arrival} {stack : Stack} {ignoreIllegals : Bool} {content : String}
      {steps : List Scan.Step} {s : Scan} (hbefore : ArrivesAt g arrivals stack)
      (hrun : Scan.Run g ignoreIllegals (Text.ofString content) (Scan.initial g stack) steps s) :
      ArrivesAt g (Scan.arrivalsAfter g steps arrivals) s.stack

/-- The frames that a call of a chain starts with all have a history. -/
theorem CompiledGrammar.ResumesAt.exists_arrivesAt {g : CompiledGrammar} {stack : Stack}
    (h : g.ResumesAt stack) : ∃ arrivals, g.ArrivesAt arrivals stack := by
  induction h with
  | root => exact ⟨[], .root⟩
  | after _ hreaches ih =>
      obtain ⟨arrivals, harrivals⟩ := ih
      obtain ⟨steps, hrun⟩ := Scan.exists_run_of_reaches hreaches
      exact ⟨_, .after harrivals hrun⟩

/-- **A chain of calls** keeps every frame bound to the text it came to be with. -/
theorem CompiledGrammar.ArrivesAt.suits {g : CompiledGrammar} {arrivals : List Arrival}
    {stack : Stack} (h : g.ArrivesAt arrivals stack) :
    List.Forall₂ (Scan.Suits g) arrivals stack.frames := by
  induction h with
  | root => exact .nil
  | after _ hrun ih => exact hrun.suits ih

/-- A call of a chain passes through the state, and its frames came to be so. -/
inductive CompiledGrammar.Passes (g : CompiledGrammar) (ignoreIllegals : Bool) (content : String) :
    List Arrival → Scan → Prop
  | intro {arrivals : List Arrival} {stack : Stack} {steps : List Scan.Step} {s : Scan}
      (hstart : g.ArrivesAt arrivals stack)
      (hrun : Scan.Run g ignoreIllegals (Text.ofString content) (Scan.initial g stack) steps s) :
      Passes g ignoreIllegals content (Scan.arrivalsAfter g steps arrivals) s

/-- **Bound frames end with their own text.** Every frame that a call of a chain starts with has a
history. At any point of a call, a frame that a lexeme began, of a mode that ends as it began, is
bound to the text that the begin matched, and a bound frame ends with exactly the lexemes that start
with its text, letter by letter. Two frames that are bound to different texts are told apart by some
lexeme. And if a step closes frames down to a bound one, whose mode ends as it began and is followed
by another, the frame opened for that one ends with exactly the lexemes that start with the same
text. -/
theorem bound_frames_end_with_their_text (g : CompiledGrammar) :
    (∀ stack, g.ResumesAt stack → ∃ arrivals, g.ArrivesAt arrivals stack) ∧
    ∀ ignoreIllegals content arrivals s, g.Passes ignoreIllegals content arrivals s →
      List.Forall₂ (fun arrival frame => frame.mode = arrival.mode ∧
          (∀ mode lexeme, arrival = .begun mode lexeme →
            (g.mode mode).flags.endSameAsBegin = true → ∃ bound, arrival.Bound g bound) ∧
          ∀ bound, arrival.Bound g bound → Scan.EndsWithText g frame bound)
        arrivals s.stack.frames ∧
      (∀ first frame second frame' bound bound', (first, frame) ∈ arrivals.zip s.stack.frames →
        (second, frame') ∈ arrivals.zip s.stack.frames → first.Bound g bound →
        second.Bound g bound' → bound ≠ bound' →
        ∃ lexeme, Scan.endsFrame g lexeme frame ≠ Scan.endsFrame g lexeme frame') ∧
      ∀ (step : Scan.Step) inner ended outer following bound, step.state = s →
        step.Taken g ignoreIllegals (Text.ofString content) →
        step.treatment = .closes (outer.length + 1) → arrivals = inner ++ ended :: outer →
        (g.mode ended.mode).flags.endSameAsBegin = true → ended.Bound g bound →
        (g.mode ended.mode).starts = some following →
        ∃ frame, (step.result g (Text.ofString content)).stack.current = frame ∧
          frame.mode = following ∧ Scan.EndsWithText g frame bound := by
  refine ⟨fun stack => CompiledGrammar.ResumesAt.exists_arrivesAt, ?_⟩
  rintro ignoreIllegals content _ s ⟨hstart, hrun⟩
  have hsuits := hrun.suits hstart.suits
  refine ⟨hsuits.imp fun arrival frame h => ⟨h.mode, h.bound, fun _ => h.endsWithText⟩, ?_, ?_⟩
  · intro first frame second frame' bound bound' hfirst hsecond hbound hbound' hne
    have hpair := fun {arrival frame} => List.forall₂_zip hsuits (a := arrival) (b := frame)
    exact ((hpair hfirst).endsWithText hbound).exists_ne ((hpair hsecond).endsWithText hbound') hne
  · rintro step inner ended outer following bound rfl htaken htreatment harrivals hsame hbound
      hstarts
    have hresult := Scan.Step.suits_result htaken hsuits
    have hafter : step.arrivals g (inner ++ ended :: outer) =
        .followed following ended :: outer := by
      rw [Scan.Step.arrivals, htreatment, List.length_append, List.length_cons]
      simp only [Nat.add_sub_cancel_right, List.drop_left, hstarts]
      rfl
    rw [harrivals, hafter] at hresult
    obtain ⟨frame, below, hframe, -, hframes⟩ := List.forall₂_cons_left_iff.1 hresult
    refine ⟨_, rfl, ?_⟩
    rw [Stack.current, hframes]
    exact ⟨hframe.mode, hframe.endsWithText (.followed hsame hbound)⟩

/-- A language with a mode that ends with the word it began with and may be open twice. -/
def sampleMirrored : Language where
  name := "mirrored"
  grammar := ⟨#[{ contains := [.mode 1], lexemes := some "z" },
    { beginPattern := some "aa|bb", lexemes := some "z", contains := [.mode 2], starts := some 3
      flags := { endSameAsBegin := true } },
    { beginPattern := some "--", lexemes := some "z", contains := [.mode 1] },
    { beginPattern := some "xx", endPattern := some "yy", lexemes := some "z" }], by decide⟩

/-- The first call leaves the mode open with one word, the second one opens it again with another.
When the inner frame ends, the mode that follows has the same end. -/
theorem bound_frames_end_with_their_text_sample :
    ∃ (g : CompiledGrammar) (s : Scan) (step : Scan.Step) (inner middle outer : Frame),
      sampleMirrored.compile = .ok g ∧
      g.Passes false "bbbb" [.begun 1 "bb", .begun 2 "--", .begun 1 "aa"] s ∧
      s.stack.frames = [inner, middle, outer] ∧
      Scan.EndsWithText g inner "bb" ∧ Scan.EndsWithText g outer "aa" ∧
      (∃ lexeme, Scan.endsFrame g lexeme inner ≠ Scan.endsFrame g lexeme outer) ∧
      step.state = s ∧ step.Taken g false (Text.ofString "bbbb") ∧
      ∃ frame, (step.result g (Text.ofString "bbbb")).stack.current = frame ∧
        frame.mode = 3 ∧ Scan.EndsWithText g frame "bb" := by
  obtain ⟨g, hcompile, hfacts⟩ := exists_of_any (show sampleMirrored.compile.toOption.any (fun g =>
    let first := Scan.stepsFrom g false (Text.ofString "aa--") (Scan.initial g .empty) 2
    let second := Scan.stepsFrom g false (Text.ofString "bbbb") (Scan.initial g first.2.stack) 1
    (g.mode 1).flags.endSameAsBegin && (g.mode 1).starts == some 3 &&
      (g.mode 1).begins.any (fun b => (b.pattern.matchStart? "aa").toOption == some (some "aa") &&
        (b.pattern.matchStart? "bb").toOption == some (some "bb")) &&
      Scan.arrivalsAfter g second.1 (Scan.arrivalsAfter g first.1 []) ==
        [.begun 1 "bb", .begun 2 "--", .begun 1 "aa"] &&
      (Scan.stepFrom? g false (Text.ofString "bbbb") second.2).any fun step =>
        match step.treatment with
        | .closes depth => depth == 3
        | _ => false) = true by decide +kernel)
  simp only [Bool.and_eq_true, beq_iff_eq, Option.any_eq_true] at hfacts
  obtain ⟨⟨⟨⟨hsame, hstarts⟩, begins, hbegins, hfirst, hsecond⟩, harrivals⟩, step, hstep,
    hcloses⟩ := hfacts
  rw [toOption_eq_some] at hfirst hsecond
  obtain ⟨hstate, htaken⟩ := Scan.taken_of_stepFrom? hstep
  have hbefore : Scan.Run g false (Text.ofString "aa--") (Scan.initial g .empty) _ _ :=
    Scan.run_stepsFrom _ 2
  have hpasses : g.Passes false "bbbb" _ _ :=
    .intro (.after .root hbefore) (Scan.run_stepsFrom _ 1)
  rw [harrivals] at hpasses
  have hinner : Arrival.Bound g (.begun 1 "bb") "bb" := .begun hsame hbegins hsecond
  have houter : Arrival.Bound g (.begun 1 "aa") "aa" := .begun hsame hbegins hfirst
  obtain ⟨-, hends⟩ := bound_frames_end_with_their_text g
  obtain ⟨hsuits, hapart, hfollowing⟩ := hends _ _ _ _ hpasses
  obtain ⟨inner, _, ⟨-, -, hinnerEnds⟩, htwo, hframes⟩ := List.forall₂_cons_left_iff.1 hsuits
  obtain ⟨middle, _, -, hone, rfl⟩ := List.forall₂_cons_left_iff.1 htwo
  obtain ⟨outer, _, ⟨-, -, houterEnds⟩, hnone, rfl⟩ := List.forall₂_cons_left_iff.1 hone
  cases hnone
  have hcloses : step.treatment = .closes 3 := by
    cases htreatment : step.treatment with
    | closes depth => simpa [htreatment] using hcloses
    | opens | stepsOver | passes => simp [htreatment] at hcloses
  refine ⟨g, _, step, inner, middle, outer, hcompile, hpasses, hframes, hinnerEnds _ hinner,
    houterEnds _ houter, ?_, hstate, htaken, ?_⟩
  · exact hapart _ inner _ outer _ _ (by simp [hframes]) (by simp [hframes]) hinner houter
      (by decide)
  · exact hfollowing step [] _ [_, _] 3 _ hstate htaken hcloses rfl hsame hinner hstarts

end LexicalModes
