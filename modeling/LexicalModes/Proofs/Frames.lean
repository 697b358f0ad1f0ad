import LexicalModes.Proofs.Inheritance
import LexicalModes.Proofs.Nesting

/-!
What a scan does to the stack. A step leaves the frames alone, opens a mode inside the innermost
one, or closes frames down to some frame and opens what follows that one (`Scan.FramesStep`). A
chain of calls on one language takes the stack from each call to the next
(`CompiledGrammar.ResumesAt`), so what every step keeps of the frames is kept along the whole chain:
first of all, that they are frames of modes the grammar has
(`CompiledGrammar.ResumesAt.inRange_of_inside`).
-/

namespace LexicalModes

open Pattern

namespace Scan

variable (g : CompiledGrammar)

/-- The frame that is opened when this one ends, if a mode follows. -/
def followers (frame : Frame) : List Frame :=
  ((g.mode frame.mode).starts.map fun following => ⟨following, inheritedCloser g frame⟩).toList

/-- What a step can do to the frames, the innermost of which comes first. -/
inductive FramesStep (frames : List Frame) : List Frame → Prop
  | same : FramesStep frames frames
  | opened {child : ModeIndex} {closer : Option Closer}
      (hchild : child ∈ (g.mode (Stack.mk frames).current.mode).contains)
      (hbegins : (g.mode child).begins.isSome = true) :
      FramesStep frames (⟨child, closer⟩ :: frames)
  | closed {inner below : List Frame} {frame : Frame} (hframes : frames = inner ++ frame :: below) :
      FramesStep frames (followers g frame ++ below)

/-! ### The frame that ends -/

variable {g}

theorem exists_of_cascade {frames : List Frame} (hne : frames ≠ []) :
    ∃ inner frame below, frames = inner ++ frame :: below ∧
      cascade g frames = below.length + 1 := by
  induction frames with
  | nil => exact absurd rfl hne
  | cons frame below ih =>
      cases below with
      | nil => exact ⟨[], frame, [], rfl, rfl⟩
      | cons next rest =>
          rw [cascade]
          · by_cases hends : (g.mode frame.mode).flags.endsParent = true
            · obtain ⟨inner, last, outer, hsplit, hdepth⟩ := ih (List.cons_ne_nil next rest)
              rw [if_pos hends, hdepth, hsplit]
              exact ⟨frame :: inner, last, outer, rfl, rfl⟩
            · rw [if_neg hends]
              exact ⟨[], frame, next :: rest, rfl, rfl⟩
          · exact List.cons_ne_nil next rest

/-- The depth that a lexeme ends is that of a frame. -/
theorem exists_of_ending? {lexeme : String} {frames : List Frame} {depth : Nat}
    (h : ending? g lexeme frames = .ok (some depth)) :
    ∃ inner frame below, frames = inner ++ frame :: below ∧ depth = below.length + 1 := by
  induction frames with
  | nil => cases h
  | cons frame below ih =>
      rw [ending?] at h
      obtain ⟨ends, -, h⟩ := bind_eq_ok.1 h
      by_cases hends : ends = true
      · rw [if_pos hends] at h
        cases h
        obtain ⟨inner, last, outer, hsplit, hdepth⟩ :=
          exists_of_cascade (g := g) (List.cons_ne_nil frame below)
        exact ⟨inner, last, outer, hsplit, hdepth⟩
      · rw [if_neg hends] at h
        split at h
        · obtain ⟨inner, last, outer, rfl, hdepth⟩ := ih h
          exact ⟨frame :: inner, last, outer, rfl, hdepth⟩
        · cases h

theorem mem_of_beginning? {lexeme : String} {children : List ModeIndex} {child : ModeIndex}
    {closer : Option Closer} (h : beginning? g lexeme children = .ok (some (child, closer))) :
    child ∈ children ∧ (g.mode child).begins.isSome = true := by
  induction children with
  | nil => cases h
  | cons first rest ih =>
      rw [beginning?] at h
      cases hbegins : (g.mode first).begins with
      | none =>
          simp only [hbegins] at h
          obtain ⟨hmem, hsome⟩ := ih h
          exact ⟨List.mem_cons_of_mem first hmem, hsome⟩
      | some b =>
          simp only [hbegins] at h
          obtain ⟨found, -, h⟩ := bind_eq_ok.1 h
          cases found with
          | none =>
              obtain ⟨hmem, hsome⟩ := ih h
              exact ⟨List.mem_cons_of_mem first hmem, hsome⟩
          | some text =>
              cases h
              exact ⟨List.mem_cons_self, by rw [hbegins]; rfl⟩

/-! ### The frames after a step -/

@[simp] theorem stack_takeBegin (s : Scan) (flags : ModeFlags) (lexeme : String) :
    (s.takeBegin flags lexeme).stack = s.stack := by
  have hflush : (if flags.excludeBegin then s.gather lexeme else s).flush.stack = s.stack := by
    rw [stack_flush]
    split <;> rfl
  rw [takeBegin]
  split
  · rfl
  · dsimp only
    split
    · exact hflush
    · exact hflush

@[simp] theorem stack_takeEnd (s : Scan) (flags : ModeFlags) (lexeme : String) :
    (s.takeEnd flags lexeme).stack = s.stack := by
  have hflush : (if flags.returnEnd || flags.excludeEnd then s else s.gather lexeme).flush.stack =
      s.stack := by
    rw [stack_flush]
    split <;> rfl
  rw [takeEnd]
  split
  · rfl
  · dsimp only
    split
    · exact hflush
    · exact hflush

@[simp] theorem frames_closeModes (count : Nat) (s : Scan) :
    (closeModes g count s).stack.frames = s.stack.frames.drop count := by
  induction count generalizing s with
  | zero => rfl
  | succ count ih =>
      rw [closeModes]
      split
      case h_1 hframes => rw [hframes, List.drop_nil]
      case h_2 frame below hframes =>
        rw [ih, hframes, List.drop_succ_cons]
        simp only [Stack.pop, hframes, List.tail_cons]

@[simp] theorem frames_enter (s : Scan) (child : ModeIndex) (closer : Option Closer)
    (lexeme : String) (offset : Nat) :
    (s.enter g child closer lexeme offset).stack.frames = ⟨child, closer⟩ :: s.stack.frames := by
  simp [enter_eq, start, Stack.push]

/-- Leaving closes the frames down to the one that ends and opens what follows it. -/
theorem frames_leave {s : Scan} {inner below : List Frame} {frame : Frame}
    (hframes : s.stack.frames = inner ++ frame :: below) (lexeme : String) (offset : Nat) :
    (s.leave g (below.length + 1) lexeme offset).stack.frames = followers g frame ++ below := by
  have hget : s.stack.get? (below.length + 1) = some frame := by
    simp [Stack.get?, Stack.depth, hframes]
  have hdrop : (closeModes g (s.stack.depth + 1 - (below.length + 1))
      (s.takeEnd (s.top g).flags lexeme)).stack.frames = below := by
    rw [frames_closeModes, stack_takeEnd, Stack.depth, hframes, List.length_append,
      List.length_cons, show inner.length + (below.length + 1) + 1 - (below.length + 1) =
        inner.length + 1 by omega, ← List.drop_drop, List.drop_left, List.drop_one, List.tail_cons]
  simp only [leave_eq, closeTo, stack_takeEnd, hget, followers]
  cases (g.mode frame.mode).starts with
  | none => exact hdrop
  | some following => exact congrArg (_ :: ·) hdrop

variable {ignoreIllegals : Bool} {text : Text}

/-- **One step** does to the frames what `FramesStep` says. -/
theorem framesStep_of_next {s next : Scan} (hnext : Next g ignoreIllegals text s next) :
    FramesStep g s.stack.frames next.stack.frames := by
  obtain ⟨terminators, span, -, -, hdispatched⟩ := step?_eq_some hnext
  cases hdispatched with
  | entered hmoving hbegin =>
      obtain ⟨hchild, hbegins⟩ := mem_of_beginning? hbegin
      rw [frames_enter]
      exact .opened hchild hbegins
  | left hmoving hbegin hend =>
      obtain ⟨inner, frame, below, hframes, rfl⟩ := exists_of_ending? hend
      rw [frames_leave (s := (s.gather (text.slice s.index span.start)).settled) hframes]
      exact .closed hframes
  | steppedOver hstalled => exact .same
  | passed hbegin hend hlegal => exact .same

/-- The frames at any point inside a scan are the outer ones of a state that is reached. -/
theorem exists_suffix_of_inside {first s : Scan} (h : Inside g ignoreIllegals text first s) :
    ∃ reached, Reaches g ignoreIllegals text first reached ∧
      s.stack.frames <:+ reached.stack.frames := by
  cases h with
  | between hreaches => exact ⟨_, hreaches, List.suffix_rfl⟩
  | entering hreaches before lexeme child =>
      refine ⟨_, hreaches, ?_⟩
      rw [stack_takeBegin]
      exact List.suffix_rfl
  | leaving hreaches before lexeme count =>
      refine ⟨_, hreaches, ?_⟩
      rw [frames_closeModes, stack_takeEnd]
      exact List.drop_suffix count _
  | finished hreaches =>
      refine ⟨_, hreaches, [], ?_⟩
      rw [stack_finish, List.nil_append]

/-- **A run** keeps what every step keeps of the frames. -/
theorem frames_of_reaches {P : List Frame → Prop}
    (hstep : ∀ {frames next}, FramesStep g frames next → P frames → P next) {first s : Scan}
    (hreaches : Reaches g ignoreIllegals text first s) (hfirst : P first.stack.frames) :
    P s.stack.frames :=
  hreaches.keeps hfirst fun _ _ _ hnext => hstep (framesStep_of_next hnext)

end Scan

/-! ### Chains of calls -/

/-- The stacks that the calls of a chain can start from: that of the root alone, and any that a run
of an earlier call of the chain comes to. -/
inductive CompiledGrammar.ResumesAt (g : CompiledGrammar) : Stack → Prop
  | root : g.ResumesAt .empty
  | after {stack : Stack} {ignoreIllegals : Bool} {content : String} {s : Scan}
      (hbefore : g.ResumesAt stack)
      (hreaches : Scan.Reaches g ignoreIllegals (Text.ofString content) (Scan.initial g stack) s) :
      g.ResumesAt s.stack

/-- A call that leaves a continuation has scanned its text to the end. -/
theorem reaches_of_highlightCompiled {embedding : Embedding} {name content : String}
    {g : CompiledGrammar} {used : List String} {options : Options} {stack : Stack}
    {result : Highlighted} {continuation : Continuation}
    (hstart : options.startFor name = .ok stack)
    (hresult : (highlightCompiled embedding name (.ok g) used content options).value = .ok result)
    (hcontinuation : result.continuation = some continuation) :
    ∃ s, Scan.Reaches g options.ignoreIllegals (Text.ofString content) (Scan.initial g stack) s ∧
      continuation.stack = s.stack := by
  rw [highlightCompiled] at hresult
  obtain ⟨-, -, hresult⟩ := Traced.bind_value_eq_ok.1 hresult
  obtain ⟨start, hat, hresult⟩ := Traced.bind_value_eq_ok.1 hresult
  rw [Traced.value_ofExcept, hstart] at hat
  cases hat
  rcases Traced.orVerbatim_value hresult with hresult | rfl
  · obtain ⟨e, last, -, hlast, rfl⟩ := highlightByGrammar_eq_ok hresult
    obtain ⟨s, hreaches, rfl, -⟩ := scan_eq_ok hlast
    cases hcontinuation
    exact ⟨s, hreaches, rfl⟩
  · cases hcontinuation

/-- A call that leaves a continuation goes on with the chain, whatever it was allowed of steps and
of depth. -/
theorem CompiledGrammar.ResumesAt.call {g : CompiledGrammar} {stack : Stack}
    (h : g.ResumesAt stack) {embedding : Embedding} {name content : String} {used : List String}
    {options : Options} {result : Highlighted} {continuation : Continuation}
    (hstart : options.startFor name = .ok stack)
    (hresult : (highlightCompiled embedding name (.ok g) used content options).value = .ok result)
    (hcontinuation : result.continuation = some continuation) :
    g.ResumesAt continuation.stack := by
  obtain ⟨s, hreaches, heq⟩ := reaches_of_highlightCompiled hstart hresult hcontinuation
  rw [heq]
  exact .after h hreaches

/-- **A chain of calls** keeps what every step keeps of the frames. -/
theorem CompiledGrammar.ResumesAt.keeps {g : CompiledGrammar} {P : List Frame → Prop}
    (hempty : P [])
    (hstep : ∀ {frames next}, Scan.FramesStep g frames next → P frames → P next) {stack : Stack}
    (h : g.ResumesAt stack) : P stack.frames := by
  induction h with
  | root => exact hempty
  | after _ hreaches ih => exact Scan.frames_of_reaches hstep hreaches ih

/-- What every step keeps, and what outer frames have if all do, holds at every point inside a scan
of a chain. -/
theorem CompiledGrammar.ResumesAt.frames_of_inside {g : CompiledGrammar} {P : List Frame → Prop}
    (hempty : P [])
    (hstep : ∀ {frames next}, Scan.FramesStep g frames next → P frames → P next)
    (houter : ∀ {frames outer}, outer <:+ frames → P frames → P outer) {stack : Stack}
    (h : g.ResumesAt stack) {ignoreIllegals : Bool} {text : Text} {s : Scan}
    (hs : Scan.Inside g ignoreIllegals text (Scan.initial g stack) s) : P s.stack.frames := by
  obtain ⟨reached, hreaches, hsuffix⟩ := Scan.exists_suffix_of_inside hs
  exact houter hsuffix (Scan.frames_of_reaches hstep hreaches (h.keeps hempty hstep))

/-! ### Frames are of modes that there are -/

/-- Every index in a compiled grammar is that of a mode. -/
structure CompiledGrammar.Linked (g : CompiledGrammar) : Prop where
  root : rootIndex < g.size
  contains : ∀ {index child : ModeIndex}, child ∈ (g.mode index).contains → child < g.size
  starts : ∀ {index following : ModeIndex}, (g.mode index).starts = some following →
    following < g.size

theorem Grammar.linked_of_compile {grammar : Grammar} {ci : Bool} {g : CompiledGrammar}
    (hok : grammar.compile ci = .ok g) : g.Linked := by
  obtain ⟨-, origins, h, hroot⟩ := Grammar.placed_of_compile hok
  refine ⟨h.lt_size hroot, ?_, ?_⟩
  · intro index child hchild
    obtain ⟨p, hp⟩ := h.exists_origin (CompiledGrammar.lt_size_of_mem_contains hchild)
    obtain ⟨q, hq, -⟩ := h.exists_origin_of_mem_contains hp hchild
    exact h.lt_size hq
  · intro index following hstarts
    obtain ⟨p, hp⟩ := h.exists_origin (CompiledGrammar.lt_size_of_starts hstarts)
    obtain ⟨mode, id, -, -, hq⟩ := h.exists_origin_of_starts hp hstarts
    exact h.lt_size hq

namespace Scan

variable {g : CompiledGrammar}

variable (g) in
/-- The frames are of modes that there are. -/
def InRange (frames : List Frame) : Prop := ∀ frame ∈ frames, frame.mode < g.size

theorem InRange.step (hlinked : g.Linked) {frames next : List Frame}
    (hstep : FramesStep g frames next) (h : InRange g frames) : InRange g next := by
  cases hstep with
  | same => exact h
  | opened hchild hbegins => exact List.forall_mem_cons.2 ⟨hlinked.contains hchild, h⟩
  | @closed inner below frame hframes =>
      subst hframes
      refine List.forall_mem_append.2 ⟨?_, fun outer houter => h outer (by simp [houter])⟩
      intro follower hfollower
      obtain ⟨following, hstarts, rfl⟩ := Option.map_eq_some_iff.1 (Option.mem_toList.1 hfollower)
      exact hlinked.starts hstarts

theorem InRange.current (hlinked : g.Linked) {stack : Stack} (h : InRange g stack.frames) :
    stack.current.mode < g.size := by
  obtain ⟨frames⟩ := stack
  cases frames with
  | nil => exact hlinked.root
  | cons frame below => exact h frame List.mem_cons_self

end Scan

/-- **Frames are of modes that there are**, at every point inside a scan of a chain. -/
theorem CompiledGrammar.ResumesAt.inRange_of_inside {g : CompiledGrammar} (hlinked : g.Linked)
    {stack : Stack} (h : g.ResumesAt stack) {ignoreIllegals : Bool} {text : Text} {s : Scan}
    (hs : Scan.Inside g ignoreIllegals text (Scan.initial g stack) s) :
    Scan.InRange g s.stack.frames :=
  h.frames_of_inside (List.forall_mem_nil _) (Scan.InRange.step hlinked)
    (fun hsuffix hframes frame hframe => hframes frame (hsuffix.mem hframe)) hs

end LexicalModes
