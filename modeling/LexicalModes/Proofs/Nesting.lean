import LexicalModes.Proofs.Calls
import LexicalModes.Proofs.Classify

/-!
Regions are well nested. A scan opens and closes regions together with the frames of its stack, so
at every state the regions still open are the labels of the frames (`Scan.InStep`), whichever frames
a continuation brought along and however many a lexeme closes at once. Chunks add well-nested
tokens, by keywords or by an embedded language, and the regions left open at the end are closed.
-/

namespace LexicalModes

open Pattern

/-! ### Boundaries of regions -/

/-- The boundary that an event puts between the tokens, if it is one. -/
def Event.boundary? : Event → Option Token
  | .begins className => some (.begins (.region className))
  | .ends className => some (.ends (.region className))
  | .chunk _ _ | .score _ => none

/-- The boundaries that events put between the tokens. -/
def boundaries (events : List Event) : List Token := events.filterMap Event.boundary?

@[simp] theorem boundaries_nil : boundaries [] = [] := rfl

@[simp] theorem boundaries_append (first second : List Event) :
    boundaries (first ++ second) = boundaries first ++ boundaries second :=
  List.filterMap_append

theorem scopesAfter?_begins (opened scopes : List Scope) :
    scopesAfter? opened (scopes.map Token.begins) = some (scopes.reverse ++ opened) := by
  induction scopes generalizing opened with
  | nil => rfl
  | cons scope rest ih =>
      rw [List.map_cons, scopesAfter?_cons]
      change scopesAfter? (scope :: opened) (rest.map Token.begins) = _
      rw [ih, List.reverse_cons, List.append_assoc]
      rfl

theorem scopesAfter?_ends (opened scopes : List Scope) :
    scopesAfter? (scopes ++ opened) (scopes.map Token.ends) = some opened := by
  induction scopes with
  | nil => rfl
  | cons scope rest ih =>
      rw [List.map_cons, scopesAfter?_cons, List.cons_append]
      simpa [Token.scopesAfter?] using ih

namespace Scan

variable (g : CompiledGrammar)

/-- The scopes of the labelled frames, in the order of the frames. -/
def frameScopes (frames : List Frame) : List Scope :=
  frames.filterMap fun frame => (g.mode frame.mode).className.map Scope.region

theorem frameScopes_eq_openClasses (stack : Stack) :
    frameScopes g stack.frames = ((openClasses g stack).map Scope.region).reverse := by
  rw [openClasses, Stack.opened, ← List.map_reverse, ← List.filterMap_reverse,
    List.reverse_reverse, List.map_filterMap]
  rfl

/-- The regions that the events have opened and not closed are those of the labelled frames. -/
def InStep (s : Scan) : Prop :=
  scopesAfter? [] (boundaries s.events.reverse) = some (frameScopes g s.stack.frames)

variable {g}

theorem InStep.gather {s : Scan} (h : s.InStep g) (content : String) :
    (s.gather content).InStep g := h

theorem InStep.settled {s : Scan} (h : s.InStep g) : s.settled.InStep g := h

theorem InStep.moveTo {s : Scan} (h : s.InStep g) (buffer : String) (entered : Option Nat)
    (index : Nat) :
    InStep g { s with buffer := buffer, entered := entered, index := index } := h

theorem InStep.flush {s : Scan} (h : s.InStep g) : s.flush.InStep g := by
  rw [Scan.flush]
  split
  · exact h
  · rw [InStep, List.reverse_cons, boundaries_append, scopesAfter?_append, h]
    rfl

/-- Opening a mode opens its region. -/
theorem InStep.start {s : Scan} (h : s.InStep g) (mode : ModeIndex) (closer : Option Closer) :
    (s.start g mode closer).InStep g := by
  rw [InStep] at h ⊢
  simp only [Scan.start, Stack.push, List.reverse_append, boundaries_append, frameScopes,
    List.filterMap_cons]
  rw [scopesAfter?_append, h]
  cases (g.mode mode).className with
  | none => rfl
  | some className => rfl

/-- Closing a mode closes its region and scores. -/
theorem boundaries_closingEvents (mode : CompiledMode) :
    boundaries (closingEvents mode) =
      (mode.className.map fun className => .ends (.region className)).toList := by
  rw [closingEvents, boundaries_append]
  cases mode.className <;> split <;> rfl

theorem InStep.closeModes {s : Scan} (h : s.InStep g) (count : Nat) :
    (closeModes g count s).InStep g := by
  induction count generalizing s with
  | zero => exact h
  | succ count ih =>
      rw [Scan.closeModes]
      split
      case h_1 => exact h
      case h_2 frame below hframes =>
        apply ih
        rw [InStep] at h ⊢
        rw [hframes, frameScopes, List.filterMap_cons] at h
        simp only [List.reverse_append, List.reverse_reverse, boundaries_append, Stack.pop,
          hframes, List.tail_cons]
        rw [scopesAfter?_append, h, boundaries_closingEvents]
        cases (g.mode frame.mode).className with
        | none => rfl
        | some className => simp [Token.scopesAfter?, frameScopes]

theorem InStep.takeBegin {s : Scan} (h : s.InStep g) (flags : ModeFlags) (lexeme : String) :
    (s.takeBegin flags lexeme).InStep g := by
  have hflush : InStep g (if flags.excludeBegin then s.gather lexeme else s).flush := by
    apply InStep.flush
    split
    · exact h.gather lexeme
    · exact h
  rw [Scan.takeBegin]
  by_cases hskip : flags.skip = true
  · rw [if_pos hskip]
    exact h.gather lexeme
  · rw [if_neg hskip]
    by_cases hreturn : (flags.returnBegin || flags.excludeBegin) = true
    · simpa only [if_pos hreturn] using hflush
    · simpa only [if_neg hreturn] using hflush.moveTo lexeme _ _

theorem InStep.takeEnd {s : Scan} (h : s.InStep g) (flags : ModeFlags) (lexeme : String) :
    (s.takeEnd flags lexeme).InStep g := by
  have hflush : InStep g
      (if flags.returnEnd || flags.excludeEnd then s else s.gather lexeme).flush := by
    apply InStep.flush
    split
    · exact h
    · exact h.gather lexeme
  rw [Scan.takeEnd]
  by_cases hskip : flags.skip = true
  · rw [if_pos hskip]
    exact h.gather lexeme
  · rw [if_neg hskip]
    by_cases hexclude : flags.excludeEnd = true
    · simpa only [if_pos hexclude] using hflush.moveTo lexeme _ _
    · simpa only [if_neg hexclude] using hflush

/-- Whichever frames end, they are closed one by one, and a follower is opened in their place. -/
theorem InStep.closeTo {s : Scan} (h : s.InStep g) (depth : Nat) :
    (s.closeTo g depth).InStep g := by
  rw [Scan.closeTo]
  split
  · split
    · exact (h.closeModes _).start _ _
    · exact h.closeModes _
  · exact h.closeModes _

theorem InStep.enter {s : Scan} (h : s.InStep g) (child : ModeIndex) (closer : Option Closer)
    (lexeme : String) (offset : Nat) : (s.enter g child closer lexeme offset).InStep g :=
  (h.takeBegin (g.mode child).flags lexeme).start child closer

theorem InStep.leave {s : Scan} (h : s.InStep g) (depth : Nat) (lexeme : String) (offset : Nat) :
    (s.leave g depth lexeme offset).InStep g :=
  (h.takeEnd (s.top g).flags lexeme).closeTo depth

variable {ignoreIllegals : Bool} {text : Text}

/-- **One step** keeps the open regions and the frames in step. -/
theorem InStep.next {s next : Scan} (h : s.InStep g)
    (hnext : Next g ignoreIllegals text s next) : next.InStep g := by
  obtain ⟨terminators, span, -, -, hdispatched⟩ := step?_eq_some hnext
  have hbefore := (h.gather (text.slice s.index span.start)).settled
  cases hdispatched with
  | entered hmoving hbegin => exact hbefore.enter _ _ _ _
  | left hmoving hbegin hend => exact hbefore.leave _ _ _
  | steppedOver hstalled => exact hbefore
  | passed hbegin hend hlegal => exact hbefore

theorem inStep_initial (stack : Stack) : (initial g stack).InStep g := by
  have hboundaries : boundaries (initial g stack).events.reverse =
      ((openClasses g stack).map Scope.region).map Token.begins := by
    simp [initial, boundaries, List.filterMap_map, Function.comp_def, Event.boundary?]
  rw [InStep, hboundaries, scopesAfter?_begins, List.append_nil]
  exact congrArg some (frameScopes_eq_openClasses g stack).symm

/-- **A run** keeps the open regions and the frames in step, whatever modes were open at first. -/
theorem inStep_of_reaches {stack : Stack} {s : Scan}
    (hreaches : Reaches g ignoreIllegals text (initial g stack) s) : s.InStep g :=
  hreaches.keeps (inStep_initial stack) fun _ _ _ hnext h => h.next hnext

variable (g ignoreIllegals text) in
/-- The points inside a scan: between two lexemes, inside the treatment of a lexeme once it has been
taken and any number of modes have been closed, and after the last chunk. -/
inductive Inside (first : Scan) : Scan → Prop
  | between {s : Scan} (hreaches : Reaches g ignoreIllegals text first s) : Inside first s
  | entering {s : Scan} (hreaches : Reaches g ignoreIllegals text first s) (before lexeme : String)
      (child : ModeIndex) :
      Inside first ((s.gather before).takeBegin (g.mode child).flags lexeme)
  | leaving {s : Scan} (hreaches : Reaches g ignoreIllegals text first s) (before lexeme : String)
      (count : Nat) :
      Inside first (closeModes g count ((s.gather before).takeEnd (s.top g).flags lexeme))
  | finished {s : Scan} (hreaches : Reaches g ignoreIllegals text first s) :
      Inside first (s.finish text)

theorem inStep_of_inside {stack : Stack} {s : Scan}
    (h : Inside g ignoreIllegals text (initial g stack) s) : s.InStep g := by
  cases h with
  | between hreaches => exact inStep_of_reaches hreaches
  | entering hreaches before lexeme child =>
      exact ((inStep_of_reaches hreaches).gather before).takeBegin _ lexeme
  | leaving hreaches before lexeme count =>
      exact (((inStep_of_reaches hreaches).gather before).takeEnd _ lexeme).closeModes count
  | finished hreaches => exact ((inStep_of_reaches hreaches).gather _).flush

end Scan

/-- The boundaries of a scan that comes to its end are well nested. -/
theorem wellNested_boundaries_scan {g : CompiledGrammar} {limit : StepLimit}
    {ignoreIllegals : Bool} {stack last : Stack} {content : String}
    (hscan : (scan g limit ignoreIllegals stack content).outcome = .ok last) :
    WellNested (boundaries (scan g limit ignoreIllegals stack content).events) := by
  obtain ⟨s, hreaches, -, hevents⟩ := scan_eq_ok hscan
  have hfinish : (s.finish (Text.ofString content)).InStep g :=
    Scan.inStep_of_inside (.finished hreaches)
  have hends : boundaries ((Scan.openClasses g s.stack).reverse.map Event.ends) =
      (Scan.frameScopes g s.stack.frames).map Token.ends := by
    rw [Scan.frameScopes_eq_openClasses]
    simp [boundaries, List.filterMap_map, Function.comp_def, Event.boundary?]
  have hclose := scopesAfter?_ends [] (Scan.frameScopes g s.stack.frames)
  rw [List.append_nil] at hclose
  rw [WellNested, hevents, boundaries_append, scopesAfter?_append, hfinish, hends,
    Scan.stack_finish]
  exact hclose

/-! ### From events to tokens -/

namespace Emission

variable {g : CompiledGrammar} {embedding : Embedding}

/-- A well-nested embedded result leaves the open scopes as they are. -/
theorem scopesAfter?_addEmbedded (e : Emission) (container : CompiledMode) {result : Highlighted}
    (hresult : WellNested result.tokens) (opened : List Scope) :
    scopesAfter? opened (e.addEmbedded container result).stream.toList =
      scopesAfter? opened e.stream.toList := by
  rw [stream_addEmbedded]
  cases result.language with
  | some name =>
      simp only [Stream.toList_push, Stream.toList_append, List.append_assoc]
      rw [scopesAfter?_append]
      refine (Option.bind_congr fun next _ => ?_).trans (Option.bind_fun_some _)
      exact hresult.enclosed (.language name) next
  | none =>
      simp only [Stream.scopesAfter?_appendJoined]
      exact (Option.bind_congr fun next _ => hresult.scopesAfter? next).trans
        (Option.bind_fun_some _)

/-- Adding an event adds its boundary, if the answer to its request is well nested. -/
theorem scopesAfter?_add {e next : Emission} {event : Event}
    (hanswers : ∀ request ∈ e.request? g event, ∀ result,
      embedding.Answers request result → WellNested result.tokens)
    (hadd : (e.add g embedding event).value = .ok next) (opened : List Scope) :
    scopesAfter? opened next.stream.toList =
      (scopesAfter? opened e.stream.toList).bind
        fun scopes => scopesAfter? scopes (boundaries [event]) := by
  cases add_eq_ok hadd with
  | begins className => rw [Stream.toList_push, scopesAfter?_append]; rfl
  | ends className => rw [Stream.toList_push, scopesAfter?_append]; rfl
  | score weight => exact (Option.bind_fun_some _).symm
  | classified hsub hclassify =>
      obtain ⟨leaves, rfl, hleaves, -⟩ := classify_ok hclassify
      rw [stream_score, Stream.scopesAfter?_appendJoined]
      exact Option.bind_congr fun scopes _ => scopesAfter?_leaves hleaves scopes
  | unregistered hsub hnone =>
      rw [Stream.scopesAfter?_pushText]
      exact (Option.bind_fun_some _).symm
  | @fixed index content name result hsub hresult =>
      have hnested : WellNested result.tokens :=
        hanswers (.fixed name content (e.threads.lookup name)) (by simp [request?, hsub]) result
          hresult
      rw [scopesAfter?_addEmbedded _ _ hnested, stream_keepThread]
      exact (Option.bind_fun_some _).symm
  | @auto index content names result hsub hresult =>
      have hnested : WellNested result.tokens :=
        hanswers (.auto names content) (by simp [request?, hsub]) result hresult
      rw [scopesAfter?_addEmbedded _ _ hnested]
      exact (Option.bind_fun_some _).symm

theorem scopesAfter?_addAll {e last : Emission} {events : List Event}
    (hanswers : ∀ request ∈ requests g embedding e events, ∀ result,
      embedding.Answers request result → WellNested result.tokens)
    (hlast : (addAll g embedding e events).value = .ok last) (opened : List Scope) :
    scopesAfter? opened last.stream.toList =
      (scopesAfter? opened e.stream.toList).bind
        fun scopes => scopesAfter? scopes (boundaries events) := by
  induction events generalizing e with
  | nil =>
      cases hlast
      exact (Option.bind_fun_some _).symm
  | cons event rest ih =>
      obtain ⟨next, hnext, hrest⟩ := addAll_cons_eq_ok hlast
      simp only [requests, hnext] at hanswers
      have hevent := scopesAfter?_add (fun request hmem => hanswers request
        (List.mem_append_left _ (Option.mem_toList.2 hmem))) hnext opened
      rw [ih (fun request hmem => hanswers request (List.mem_append_right _ hmem)) hrest, hevent,
        Option.bind_assoc]
      refine Option.bind_congr fun scopes _ => ?_
      rw [← scopesAfter?_append, ← boundaries_append]
      rfl

end Emission

theorem wellNested_verbatim (content : String) :
    WellNested (Highlighted.verbatim content).tokens := by
  rw [WellNested, Highlighted.verbatim, Stream.scopesAfter?_pushText]
  rfl

/-- Being well nested is passed on from embedded results. -/
theorem hereditary_wellNested :
    Hereditary (fun _ => True) (fun _ => True) (fun _ result => WellNested result.tokens) where
  verbatim := wellNested_verbatim
  byGrammar := by
    intro g embedding name ignoreIllegals stack content result _ _ hanswers hresult
    obtain ⟨e, last, he, hlast, rfl⟩ := highlightByGrammar_eq_ok hresult
    rw [WellNested, Emission.scopesAfter?_addAll hanswers he]
    exact wellNested_boundaries_scan hlast

/-- Every registered grammar satisfies what all grammars satisfy. -/
theorem Registry.allCompiled_true (r : Registry) : r.AllCompiled fun _ => True :=
  fun _ _ _ _ => trivial

/-- The tokens of the events up to a state of a scan leave open exactly the regions of its labelled
frames. -/
theorem Emission.scopesAfter?_inStep {h : Highlighter} {depth : Nat} {g : CompiledGrammar}
    {s : Scan} (hs : s.InStep g) {e : Emission}
    (he : (Emission.addAll g (h.embedding depth) {} s.events.reverse).value = .ok e) :
    scopesAfter? [] e.stream.toList =
      some ((Scan.openClasses g s.stack).map Scope.region).reverse := by
  have hanswers : ∀ request ∈ Emission.requests g (h.embedding depth) {} s.events.reverse,
      ∀ result, (h.embedding depth).Answers request result → WellNested result.tokens :=
    fun request _ result hresult => hereditary_wellNested.answer h.registry.allCompiled_true depth
      request (fun _ _ => trivial) result hresult
  rw [Emission.scopesAfter?_addAll hanswers he, ← Scan.frameScopes_eq_openClasses]
  exact hs

/-- **Regions are well nested** in the tokens of every result, whatever a call is allowed of steps
and of depth, and at every point inside a scan the regions still open are the classes of the
labelled frames, the innermost last. -/
theorem wellNested_highlight (h : Highlighter) :
    (∀ (name content : String) (options : Options) (result : Highlighted),
      (h.highlightWith name content options).value = .ok result → WellNested result.tokens) ∧
    (∀ (language : Language) (content : String) (options : Options) (result : Highlighted),
      (h.highlightLanguage language content options).value = .ok result →
      WellNested result.tokens) ∧
    (∀ (content : String) (names : List String) (detection : Detection),
      (h.highlightAmong content names).value = .ok detection →
      WellNested detection.best.tokens ∧
        ∀ second ∈ detection.second, WellNested second.tokens) ∧
    (∀ (depth : Nat) (g : CompiledGrammar) (ignoreIllegals : Bool) (stack : Stack)
      (content : String) (point : Scan) (e : Emission),
      Scan.Inside g ignoreIllegals (Text.ofString content) (Scan.initial g stack) point →
      (Emission.addAll g (h.embedding depth) {} point.events.reverse).value = .ok e →
      scopesAfter? [] e.stream.toList =
        some ((Scan.openClasses g point.stack).map Scope.region).reverse) := by
  refine ⟨?_, ?_, ?_, ?_⟩
  · intro name content options result hresult
    exact hereditary_wellNested.highlightWith h.registry.allCompiled_true (fun _ _ => trivial)
      hresult
  · intro language content options result hresult
    exact hereditary_wellNested.highlightLanguage h.registry.allCompiled_true
      (fun _ _ => trivial) (fun _ _ => trivial) hresult
  · intro content names detection hresult
    exact hereditary_wellNested.highlightAmong h.registry.allCompiled_true (fun _ _ => trivial)
      hresult
  · intro depth g ignoreIllegals stack content point e hpoint he
    exact Emission.scopesAfter?_inStep (Scan.inStep_of_inside hpoint) he

/-- The number in the quoted text is open in the embedded language, and the quoted text around it in
the host, when the text ends. -/
theorem wellNested_highlight_sample :
    (∃ result, (sampleHighlighter.highlightWith "host" "a<b1" {}).value = .ok result ∧
      WellNested result.tokens) ∧
    (∃ result, (sampleHighlighter.highlightLanguage sampleInner "12"
        { continuation := some ⟨"inner", ⟨[⟨1, none⟩]⟩⟩ }).value = .ok result ∧
      WellNested result.tokens) ∧
    (∃ detection, (sampleHighlighter.highlightAmong "12<1>" []).value = .ok detection ∧
      WellNested detection.best.tokens) ∧
    (∃ g e, sampleHost.compile = .ok g ∧
      (Emission.addAll g (sampleHighlighter.embedding 1) {}
        ((Scan.initial g ⟨[⟨1, none⟩]⟩).finish (Text.ofString "1")).events.reverse).value = .ok e ∧
      scopesAfter? [] e.stream.toList =
        some ((Scan.openClasses g ⟨[⟨1, none⟩]⟩).map Scope.region).reverse) := by
  obtain ⟨hwith, hlanguage, hamong, hinside⟩ := wellNested_highlight sampleHighlighter
  refine ⟨?_, ?_, ?_, ?_⟩
  · obtain ⟨result, hresult⟩ := exists_of_isOk (show (sampleHighlighter.highlightWith "host"
      "a<b1" {}).value.isOk = true by decide +kernel)
    exact ⟨result, hresult, hwith _ _ _ _ hresult⟩
  · obtain ⟨result, hresult⟩ := exists_of_isOk (show (sampleHighlighter.highlightLanguage
      sampleInner "12" { continuation := some ⟨"inner", ⟨[⟨1, none⟩]⟩⟩ }).value.isOk = true by
        decide +kernel)
    exact ⟨result, hresult, hlanguage _ _ _ _ hresult⟩
  · obtain ⟨detection, hdetection⟩ := exists_of_isOk (show (sampleHighlighter.highlightAmong
      "12<1>" []).value.isOk = true by decide +kernel)
    exact ⟨detection, hdetection, (hamong _ _ _ hdetection).1⟩
  · have hok : (sampleHost.compile >>= fun g => (Emission.addAll g (sampleHighlighter.embedding 1)
        {} ((Scan.initial g ⟨[⟨1, none⟩]⟩).finish (Text.ofString "1")).events.reverse).value
          |>.mapError fun _ => .endless).isOk = true := by decide +kernel
    obtain ⟨a, ha⟩ := exists_of_isOk hok
    obtain ⟨g, hg, hadded⟩ := bind_eq_ok.1 ha
    cases hvalue : (Emission.addAll g (sampleHighlighter.embedding 1) {}
        ((Scan.initial g ⟨[⟨1, none⟩]⟩).finish (Text.ofString "1")).events.reverse).value with
    | error f =>
      rw [hvalue] at hadded
      exact absurd hadded (by simp [Except.mapError])
    | ok e =>
      refine ⟨g, e, hg, hvalue, ?_⟩
      have := hinside 1 g false ⟨[⟨1, none⟩]⟩ "1" _ e (.finished Relation.ReflTransGen.refl) hvalue
      rwa [Scan.stack_finish] at this

end LexicalModes
