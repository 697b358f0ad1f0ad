import LexicalModes.Proofs.Emitted
import LexicalModes.Proofs.Parents

/-!
Which frames one end closes. A lexeme ends the innermost frame whose end it matches, if all frames
above that one end with their parents (`Scan.EndsAt`), and takes along the frames below as far as
frames end their parents (`Scan.TakesAlong`); the root has no end and is never reached. Leaving then
cuts the stack at the depth found: the frames below stay as they are, the regions of the closed ones
end from the innermost outward, and at most one frame is opened in their place
(`ends_exactly_its_frames`).
-/

namespace LexicalModes

open Pattern

/-- A frame above the root stands between the frames inside it and the frames around it. -/
theorem Stack.exists_split {stack : Stack} {depth : Nat} {frame : Frame} (hdepth : 1 ≤ depth)
    (hframe : stack.get? depth = some frame) :
    ∃ inner below, stack.frames = inner ++ frame :: below ∧ depth = below.length + 1 := by
  obtain ⟨frames⟩ := stack
  induction frames with
  | nil =>
      have hle := le_depth_of_get? hframe
      simp only [Stack.depth, List.length_nil] at hle
      omega
  | cons first rest ih =>
      rw [get?_cons] at hframe
      by_cases htop : depth = rest.length + 1
      · rw [if_pos htop] at hframe
        cases hframe
        exact ⟨[], rest, rfl, htop⟩
      · rw [if_neg htop] at hframe
        obtain ⟨inner, below, hrest, hbelow⟩ := ih hframe
        exact ⟨first :: inner, below, congrArg (first :: ·) hrest, hbelow⟩

namespace Scan

variable (g : CompiledGrammar)

/-- The lexeme matches the end of the frame: the one fixed when the frame was entered or, if there
is none, that of its mode. -/
def EndedBy (lexeme : String) (frame : Frame) : Prop :=
  match frame.closer with
  | some closer => closer.recognises lexeme = .ok true
  | none => ∃ e, (g.mode frame.mode).ends = some e ∧
      ∃ found, e.pattern.matchStart? lexeme = .ok (some found)

/-- The lexeme matches the end of the frame at the depth and of no frame above, and the frames above
end with their parents. -/
structure EndsAt (lexeme : String) (stack : Stack) (depth : Nat) : Prop where
  pos : 1 ≤ depth
  ended : ∃ frame, stack.get? depth = some frame ∧ EndedBy g lexeme frame
  above : ∀ inner frame, depth < inner → stack.get? inner = some frame →
    ¬EndedBy g lexeme frame ∧ (g.mode frame.mode).flags.endsWithParent = true

/-- The frames that end their parents reach from one depth to another and no further. -/
structure TakesAlong (stack : Stack) (depth outer : Nat) : Prop where
  pos : 1 ≤ outer
  le : outer ≤ depth
  through : ∀ inner frame, outer < inner → inner ≤ depth → stack.get? inner = some frame →
    (g.mode frame.mode).flags.endsParent = true
  stops : outer = 1 ∨
    ∃ frame, stack.get? outer = some frame ∧ (g.mode frame.mode).flags.endsParent = false

variable {g} {lexeme : String}

/-! ### The depth that ends -/

theorem endsFrame_eq_true_iff {frame : Frame} :
    endsFrame g lexeme frame = .ok true ↔ EndedBy g lexeme frame := by
  rw [endsFrame.eq_def, EndedBy]
  cases frame.closer with
  | some closer => exact Iff.rfl
  | none =>
      cases (g.mode frame.mode).ends with
      | none => simp
      | some e =>
          dsimp only
          rw [bind_eq_ok]
          constructor
          · rintro ⟨found, hfound, hsome⟩
            obtain ⟨text, rfl⟩ := Option.isSome_iff_exists.1 (pure_eq_ok.1 hsome)
            exact ⟨e, rfl, text, hfound⟩
          · rintro ⟨_, heq, text, hfound⟩
            cases heq
            exact ⟨some text, hfound, rfl⟩

/-- If the search for the end of a frame does not fail, it tells whether the lexeme matches. -/
theorem endsFrame_eq_false {frame : Frame} (hfound : (endsFrame g lexeme frame).isOk = true)
    (hends : ¬EndedBy g lexeme frame) : endsFrame g lexeme frame = .ok false := by
  obtain ⟨ends, heq⟩ := exists_of_isOk hfound
  cases ends with
  | false => exact heq
  | true => exact absurd (endsFrame_eq_true_iff.1 heq) hends

theorem TakesAlong.unique {stack : Stack} {depth outer outer' : Nat}
    (h : TakesAlong g stack depth outer) (h' : TakesAlong g stack depth outer') :
    outer = outer' := by
  have hnot : ∀ {a b}, TakesAlong g stack depth a → TakesAlong g stack depth b → ¬a < b := by
    intro a b ha hb hlt
    have hpos := ha.pos
    rcases hb.stops with hone | ⟨frame, hframe, hstops⟩
    · omega
    · rw [ha.through b frame hlt hb.le hframe] at hstops
      cases hstops
  have hleft := hnot h h'
  have hright := hnot h' h
  omega

theorem takesAlong_cons {frame : Frame} {below : List Frame} {depth outer : Nat}
    (hdepth : depth ≤ below.length) :
    TakesAlong g ⟨frame :: below⟩ depth outer ↔ TakesAlong g ⟨below⟩ depth outer := by
  have hget : ∀ inner ≤ depth,
      (Stack.mk (frame :: below)).get? inner = (Stack.mk below).get? inner := by
    intro inner hinner
    rw [Stack.get?_cons, if_neg (by omega)]
  constructor
  · intro h
    refine ⟨h.pos, h.le, fun inner f hlt hle hf => h.through inner f hlt hle ?_, ?_⟩
    · rw [hget inner hle, hf]
    · rw [← hget outer h.le]
      exact h.stops
  · intro h
    refine ⟨h.pos, h.le, fun inner f hlt hle hf => h.through inner f hlt hle ?_, ?_⟩
    · rw [← hget inner hle, hf]
    · rw [hget outer h.le]
      exact h.stops

/-- The frames taken along with the innermost one. -/
theorem takesAlong_cascade {frames : List Frame} (hne : frames ≠ []) :
    TakesAlong g ⟨frames⟩ frames.length (cascade g frames) := by
  induction frames with
  | nil => exact absurd rfl hne
  | cons frame below ih =>
      have htop : (Stack.mk (frame :: below)).get? (below.length + 1) = some frame := by
        rw [Stack.get?_cons, if_pos rfl]
      cases below with
      | nil =>
          refine ⟨Nat.le_refl 1, Nat.le_refl 1, fun inner f hlt hle _ => ?_, .inl rfl⟩
          exact absurd (Nat.lt_of_lt_of_le hlt hle) (Nat.lt_irrefl 1)
      | cons next rest =>
          rw [cascade]
          · by_cases hends : (g.mode frame.mode).flags.endsParent = true
            · rw [if_pos hends]
              have hbelow : TakesAlong g ⟨frame :: next :: rest⟩ _ _ :=
                (takesAlong_cons (Nat.le_refl _)).2 (ih (List.cons_ne_nil next rest))
              refine ⟨hbelow.pos, Nat.le_succ_of_le hbelow.le, ?_, hbelow.stops⟩
              intro inner f hlt hle hf
              by_cases hinner : inner = (next :: rest).length + 1
              · rw [hinner, htop] at hf
                cases hf
                exact hends
              · have hmost : inner ≤ (next :: rest).length := by
                  simp only [List.length_cons] at hle hinner ⊢
                  omega
                exact hbelow.through inner f hlt hmost hf
            · rw [if_neg hends]
              refine ⟨Nat.le_add_left 1 _, Nat.le_refl _, fun _ _ hlt hle _ => ?_, .inr ?_⟩
              · have hlt' := Nat.lt_of_lt_of_le hlt hle
                exact absurd hlt' (Nat.lt_irrefl _)
              · exact ⟨frame, htop, Bool.eq_false_iff.2 hends⟩
          · exact List.cons_ne_nil next rest

/-- The innermost frame is looked at first. -/
theorem endsAt_cons {frame : Frame} {below : List Frame} {depth : Nat} :
    EndsAt g lexeme ⟨frame :: below⟩ depth ↔
      (depth = below.length + 1 ∧ EndedBy g lexeme frame) ∨
        (depth ≤ below.length ∧ ¬EndedBy g lexeme frame ∧
          (g.mode frame.mode).flags.endsWithParent = true ∧ EndsAt g lexeme ⟨below⟩ depth) := by
  have htop : (Stack.mk (frame :: below)).get? (below.length + 1) = some frame := by
    rw [Stack.get?_cons, if_pos rfl]
  have hget : ∀ {inner}, inner ≠ below.length + 1 →
      (Stack.mk (frame :: below)).get? inner = (Stack.mk below).get? inner := by
    intro inner hinner
    rw [Stack.get?_cons, if_neg hinner]
  constructor
  · intro h
    obtain ⟨ended, hended, hends⟩ := h.ended
    by_cases hdepth : depth = below.length + 1
    · rw [hdepth, htop] at hended
      cases hended
      exact .inl ⟨hdepth, hends⟩
    · rw [hget hdepth] at hended
      have hle : depth ≤ below.length := Stack.le_depth_of_get? hended
      obtain ⟨hnot, hparent⟩ := h.above _ frame (Nat.lt_succ_of_le hle) htop
      refine .inr ⟨hle, hnot, hparent, h.pos, ⟨ended, hended, hends⟩, fun inner f hlt hf => ?_⟩
      have hinner : inner ≤ below.length := Stack.le_depth_of_get? hf
      exact h.above inner f hlt (by rw [hget (by omega), hf])
  · rintro (⟨rfl, hends⟩ | ⟨hle, hnot, hparent, h⟩)
    · refine ⟨Nat.le_add_left 1 _, ⟨frame, htop, hends⟩, fun inner f hlt hf => ?_⟩
      have hinner := Stack.le_depth_of_get? hf
      simp only [Stack.depth, List.length_cons] at hinner
      omega
    · obtain ⟨ended, hended, hends⟩ := h.ended
      refine ⟨h.pos, ⟨ended, by rw [hget (by omega), hended], hends⟩, fun inner f hlt hf => ?_⟩
      by_cases hinner : inner = below.length + 1
      · rw [hinner, htop] at hf
        cases hf
        exact ⟨hnot, hparent⟩
      · rw [hget hinner] at hf
        exact h.above inner f hlt hf

/-- **The depth that ends.** Where no search fails, a lexeme ends a depth exactly if it is reached
from the innermost frame that the lexeme can end. -/
theorem exists_ending {frames : List Frame}
    (hsearch : ∀ frame ∈ frames, (endsFrame g lexeme frame).isOk = true) :
    ∃ ended, ending? g lexeme frames = .ok ended ∧ ∀ outer, ended = some outer ↔
      ∃ depth, EndsAt g lexeme ⟨frames⟩ depth ∧ TakesAlong g ⟨frames⟩ depth outer := by
  induction frames with
  | nil =>
      refine ⟨none, rfl, fun outer => iff_of_false nofun ?_⟩
      rintro ⟨depth, hends, -⟩
      obtain ⟨frame, hframe, -⟩ := hends.ended
      have hle := Stack.le_depth_of_get? hframe
      have hpos := hends.pos
      simp only [Stack.depth, List.length_nil] at hle
      omega
  | cons frame below ih =>
      obtain ⟨hfirst, hrest⟩ := List.forall_mem_cons.1 hsearch
      -- The search stops at a frame that ends, and goes below one that ends with its parent.
      by_cases hends : EndedBy g lexeme frame
      · refine ⟨some (cascade g (frame :: below)), ?_, fun outer => ?_⟩
        · rw [ending?, endsFrame_eq_true_iff.2 hends]
          rfl
        · have hcascade := takesAlong_cascade (g := g) (List.cons_ne_nil frame below)
          constructor
          · rintro ⟨⟩
            exact ⟨below.length + 1, endsAt_cons.2 (.inl ⟨rfl, hends⟩), hcascade⟩
          · rintro ⟨depth, hat, htakes⟩
            rcases endsAt_cons.1 hat with ⟨rfl, -⟩ | ⟨-, hnot, -⟩
            · exact congrArg some (hcascade.unique htakes)
            · exact absurd hends hnot
      · have hfalse := endsFrame_eq_false hfirst hends
        by_cases hparent : (g.mode frame.mode).flags.endsWithParent = true
        · obtain ⟨ended, hended, hiff⟩ := ih hrest
          refine ⟨ended, ?_, fun outer => ?_⟩
          · rw [ending?, hfalse]
            exact (if_pos hparent).trans hended
          · rw [hiff]
            constructor
            · rintro ⟨depth, hat, htakes⟩
              obtain ⟨ended, hat', -⟩ := hat.ended
              have hle : depth ≤ below.length := Stack.le_depth_of_get? hat'
              exact ⟨depth, endsAt_cons.2 (.inr ⟨hle, hends, hparent, hat⟩),
                (takesAlong_cons hle).2 htakes⟩
            · rintro ⟨depth, hat, htakes⟩
              rcases endsAt_cons.1 hat with ⟨-, hended⟩ | ⟨hle, -, -, hbelow⟩
              · exact absurd hended hends
              · exact ⟨depth, hbelow, (takesAlong_cons hle).1 htakes⟩
        · refine ⟨none, ?_, fun outer => iff_of_false nofun ?_⟩
          · rw [ending?, hfalse]
            exact if_neg hparent
          · rintro ⟨depth, hat, -⟩
            rcases endsAt_cons.1 hat with ⟨-, hended⟩ | ⟨-, -, hwith, -⟩
            · exact hends hended
            · exact hparent hwith

/-! ### What leaving does -/

theorem exists_flush (s : Scan) :
    ∃ read, s.flush.events.reverse = s.events.reverse ++ read ∧ boundaries read = [] := by
  rw [flush]
  split
  · exact ⟨[], (List.append_nil _).symm, rfl⟩
  · exact ⟨[.chunk s.stack.current.mode s.buffer], by simp, rfl⟩

/-- What is read up to an end becomes a chunk. -/
theorem exists_takeEnd (s : Scan) (flags : ModeFlags) (lexeme : String) :
    ∃ read, (s.takeEnd flags lexeme).events.reverse = s.events.reverse ++ read ∧
      boundaries read = [] := by
  rcases s.takeEnd_cases flags lexeme with
    ⟨-, htake⟩ | ⟨-, -, htake⟩ | ⟨-, -, -, htake⟩ | ⟨-, -, -, htake⟩
  · rw [htake]
    exact ⟨[], (List.append_nil _).symm, rfl⟩
  · rw [htake]
    exact s.exists_flush
  · rw [htake]
    exact s.exists_flush
  · rw [htake]
    exact (s.gather lexeme).exists_flush

theorem events_closeModes (count : Nat) (s : Scan) :
    (closeModes g count s).events.reverse = s.events.reverse ++
      (s.stack.frames.take count).flatMap fun frame => closingEvents (g.mode frame.mode) := by
  induction count generalizing s with
  | zero => simp [closeModes]
  | succ count ih =>
      rw [closeModes]
      split
      case h_1 hframes => simp [hframes]
      case h_2 frame below hframes =>
        rw [ih, hframes]
        simp [Stack.pop, hframes]

/-- What happens when frames are closed and others opened in their place. -/
def exchangeEvents (g : CompiledGrammar) (closed opened : List Frame) : List Event :=
  (closed.flatMap fun frame => closingEvents (g.mode frame.mode)) ++
    opened.flatMap fun frame => ((g.mode frame.mode).className.map Event.begins).toList

/-- **Leaving.** The open frames are cut at the depth of the frame that ends, what follows that
frame is opened, and the events say so after what was read. -/
theorem leave_eq_exchange (s : Scan) {depth : Nat} {frame : Frame} (hdepth : 1 ≤ depth)
    (hframe : s.stack.get? depth = some frame) (lexeme : String) (offset : Nat) :
    (s.leave g depth lexeme offset).stack.opened =
        s.stack.opened.take (depth - 1) ++ followers g frame ∧
      ∃ read, boundaries read = [] ∧ (s.leave g depth lexeme offset).events.reverse =
        s.events.reverse ++ read ++ exchangeEvents g (s.stack.opened.drop (depth - 1)).reverse
          (followers g frame) := by
  obtain ⟨inner, below, hsplit, rfl⟩ := Stack.exists_split hdepth hframe
  obtain ⟨read, hread, hsilent⟩ := s.exists_takeEnd (s.top g).flags lexeme
  have hcount : s.stack.depth + 1 - (below.length + 1) = (inner ++ [frame]).length := by
    simp only [Stack.depth, hsplit, List.length_append, List.length_cons, List.length_nil]
    omega
  have hframes : s.stack.frames = (inner ++ [frame]) ++ below := by
    rw [hsplit, List.append_assoc]
    rfl
  have hopened : s.stack.opened = below.reverse ++ (inner ++ [frame]).reverse := by
    rw [Stack.opened, hframes, List.reverse_append]
  have houter : s.stack.opened.take below.length = below.reverse := by
    rw [hopened, List.take_left' List.length_reverse]
  have hclosed : (s.stack.opened.drop below.length).reverse = inner ++ [frame] := by
    rw [hopened, List.drop_left' List.length_reverse, List.reverse_reverse]
  have hevents := events_closeModes (g := g) (s.stack.depth + 1 - (below.length + 1))
    (s.takeEnd (s.top g).flags lexeme)
  have htake : s.stack.frames.take (inner ++ [frame]).length = inner ++ [frame] := by
    rw [hframes, List.take_left]
  rw [hread, stack_takeEnd, hcount, htake] at hevents
  refine ⟨?_, read, hsilent, ?_⟩
  · rw [Nat.add_sub_cancel, houter, Stack.opened, frames_leave hsplit, List.reverse_append,
      followers]
    cases (g.mode frame.mode).starts <;> rfl
  · rw [Nat.add_sub_cancel, hclosed]
    simp only [leave_eq, closeTo, stack_takeEnd, hframe, exchangeEvents, followers, hcount]
    rw [← List.append_assoc, ← hevents]
    cases (g.mode frame.mode).starts with
    | none => simp
    | some following =>
        cases hclass : (g.mode following).className <;> simp [start, hclass]

end Scan

/-! ### From events to tokens -/

theorem boundaries_cons (event : Event) (rest : List Event) :
    boundaries (event :: rest) = event.boundary?.toList ++ boundaries rest := by
  rw [boundaries, List.filterMap_cons]
  cases event.boundary? <;> rfl

/-- Events without a chunk stand for their boundaries, whatever is embedded. -/
theorem Emission.exists_addAll_of_chunkless {g : CompiledGrammar} (embedding : Embedding)
    {events : List Event} (hchunk : ∀ event ∈ events, ∀ mode content, event ≠ .chunk mode content)
    (e : Emission) :
    ∃ last, (addAll g embedding e events).value = .ok last ∧
      last.stream.toList = e.stream.toList ++ boundaries events := by
  induction events generalizing e with
  | nil => exact ⟨e, rfl, (List.append_nil _).symm⟩
  | cons event rest ih =>
      obtain ⟨hevent, hrest⟩ := List.forall_mem_cons.1 hchunk
      have hadd : ∃ next, (e.add g embedding event).value = .ok next ∧
          next.stream.toList = e.stream.toList ++ event.boundary?.toList := by
        cases event with
        | begins className => exact ⟨_, rfl, Stream.toList_push ..⟩
        | ends className => exact ⟨_, rfl, Stream.toList_push ..⟩
        | chunk mode content => exact absurd rfl (hevent mode content)
        | score weight => exact ⟨_, rfl, (List.append_nil _).symm⟩
      obtain ⟨next, hnext, hstream⟩ := hadd
      obtain ⟨last, hlast, htokens⟩ := ih hrest next
      refine ⟨last, Traced.bind_value_eq_ok.2 ⟨next, hnext, hlast⟩, ?_⟩
      rw [htokens, hstream, List.append_assoc, boundaries_cons]

theorem Scan.exchangeEvents_chunkless {g : CompiledGrammar} {closed opened : List Frame} :
    ∀ event ∈ exchangeEvents g closed opened, ∀ mode content, event ≠ .chunk mode content := by
  rintro event hevent mode content rfl
  simp [exchangeEvents, closingEvents] at hevent

theorem Scan.boundaries_exchangeEvents {g : CompiledGrammar} (closed opened : List Frame) :
    boundaries (exchangeEvents g closed opened) =
      (frameScopes g closed).map Token.ends ++ (frameScopes g opened).map Token.begins := by
  have hclosed : boundaries (closed.flatMap fun frame => closingEvents (g.mode frame.mode)) =
      (frameScopes g closed).map Token.ends := by
    induction closed with
    | nil => rfl
    | cons frame rest ih =>
        rw [List.flatMap_cons, boundaries_append, ih, boundaries_closingEvents, frameScopes,
          frameScopes, List.filterMap_cons]
        cases (g.mode frame.mode).className <;> rfl
  have hopened : boundaries (opened.flatMap fun frame =>
      ((g.mode frame.mode).className.map Event.begins).toList) =
        (frameScopes g opened).map Token.begins := by
    induction opened with
    | nil => rfl
    | cons frame rest ih =>
        rw [List.flatMap_cons, boundaries_append, ih, frameScopes, frameScopes,
          List.filterMap_cons]
        cases (g.mode frame.mode).className <;> rfl
  rw [exchangeEvents, boundaries_append, hclosed, hopened]

/-- **An end closes exactly its frames.** The root has no end. Where no search fails, a lexeme ends
a depth exactly if some frame is the innermost whose end it matches, all frames above that one end
with their parents, and the depth is the last that is reached from it through frames that end their
parents. Leaving at a depth above the root cuts the open frames there and opens what follows the
frame at that depth; the text read so far aside, the tokens are then the ends of the regions of the
frames that were cut off, the innermost first, and the begin of the region that follows. -/
theorem ends_exactly_its_frames {language : Language} {g : CompiledGrammar}
    (hcompile : language.compile = .ok g) (s : Scan) (lexeme : String) :
    ¬Scan.EndedBy g lexeme Stack.rootFrame ∧
    ((∀ frame ∈ s.stack.frames, (Scan.endsFrame g lexeme frame).isOk = true) →
      ∃ ended, Scan.ending? g lexeme s.stack.frames = .ok ended ∧
        ∀ outer, ended = some outer ↔
          ∃ depth, Scan.EndsAt g lexeme s.stack depth ∧ Scan.TakesAlong g s.stack depth outer) ∧
    ∀ depth frame offset, 1 ≤ depth → s.stack.get? depth = some frame →
      (s.leave g depth lexeme offset).stack.opened =
        s.stack.opened.take (depth - 1) ++ Scan.followers g frame ∧
      ∃ read exchanged, boundaries read = [] ∧
        (s.leave g depth lexeme offset).events.reverse = s.events.reverse ++ read ++ exchanged ∧
        ∀ (embedding : Embedding) (e : Emission), ∃ last,
          (e.addAll g embedding exchanged).value = .ok last ∧
          last.stream.toList = e.stream.toList ++
            (Scan.frameScopes g (s.stack.opened.drop (depth - 1)).reverse).map Token.ends ++
            (Scan.frameScopes g (Scan.followers g frame)).map Token.begins := by
  refine ⟨?_, Scan.exists_ending, ?_⟩
  · obtain ⟨-, hends, -⟩ := Grammar.root_of_compile hcompile
    rintro ⟨e, he, -⟩
    cases hends.symm.trans he
  · intro depth frame offset hdepth hframe
    obtain ⟨hopened, read, hread, hevents⟩ := s.leave_eq_exchange hdepth hframe lexeme offset
    refine ⟨hopened, read, _, hread, hevents, fun embedding e => ?_⟩
    obtain ⟨last, hlast, htokens⟩ :=
      Emission.exists_addAll_of_chunkless embedding Scan.exchangeEvents_chunkless e
    rw [Scan.boundaries_exchangeEvents, ← List.append_assoc] at htokens
    exact ⟨last, hlast, htokens⟩

/-- A language with three modes inside each other: the innermost ends with its parent, the next one
ends its parent, and the outermost is followed by a mode. -/
def sampleCascade : Language where
  name := "cascade"
  grammar := ⟨#[{ contains := [.mode 1], lexemes := some "z" },
    { className := some "outer", beginPattern := some "<", endPattern := some ">"
      lexemes := some "z", contains := [.mode 2], starts := some 4 },
    { className := some "middle", beginPattern := some "do", endPattern := some "od"
      lexemes := some "z", contains := [.mode 3], flags := { endsParent := true } },
    { beginPattern := some "-", lexemes := some "z", flags := { endsWithParent := true } },
    { className := some "tail", beginPattern := some "t", endPattern := some ";"
      lexemes := some "z" }], by decide⟩

/-- The last word ends the middle mode with the one inside it, and takes the outer one along; the
mode that follows is the only one open then. -/
theorem ends_exactly_its_frames_sample :
    ∃ g s frame, sampleCascade.compile = .ok g ∧
      Scan.Reaches g false (Text.ofString "<do-od") (Scan.initial g .empty) s ∧
      s.stack.depth = 3 ∧ s.stack.get? 1 = some frame ∧
      (∃ depth, Scan.EndsAt g "od" s.stack depth ∧ Scan.TakesAlong g s.stack depth 1) ∧
      (s.leave g 1 "od" 4).stack.opened = Scan.followers g frame ∧
      (s.leave g 1 "od" 4).stack.depth = 1 := by
  obtain ⟨g, hcompile, hfacts⟩ := exists_of_any (show sampleCascade.compile.toOption.any (fun g =>
    let s := (Scan.run g false (Text.ofString "<do-od") 3 (Scan.initial g .empty)).1
    s.stack.depth == 3 && (s.stack.get? 1).isSome &&
      s.stack.frames.all (fun frame => (Scan.endsFrame g "od" frame).isOk) &&
      (Scan.ending? g "od" s.stack.frames).toOption == some (some 1) &&
      (s.leave g 1 "od" 4).stack.depth == 1) = true by decide +kernel)
  simp only [Bool.and_eq_true, beq_iff_eq, List.all_eq_true] at hfacts
  obtain ⟨⟨⟨⟨hdepth, hsome⟩, hsearch⟩, hending⟩, hlast⟩ := hfacts
  obtain ⟨frame, hframe⟩ := Option.isSome_iff_exists.1 hsome
  obtain ⟨-, hends, hleave⟩ := ends_exactly_its_frames hcompile
    (Scan.run g false (Text.ofString "<do-od") 3 (Scan.initial g .empty)).1 "od"
  obtain ⟨ended, hended, hiff⟩ := hends hsearch
  rw [hended] at hending
  obtain ⟨hopened, -⟩ := hleave 1 frame 3 (Nat.le_refl 1) hframe
  exact ⟨g, _, frame, hcompile, Scan.reaches_run 3 _, hdepth, hframe,
    (hiff 1).1 (Option.some.inj hending), hopened, hlast⟩

end LexicalModes
