import LexicalModes.Proofs.Containment
import LexicalModes.Proofs.Conservation
import LexicalModes.Proofs.Nesting

/-!
Text lands in the region it was read in. A step of a scan says of each character that it gathers
whether it belongs to the regions open before the step or after it (`Scan.Step.readings`). The
buffer holds text of one such set of regions at a time, because it is flushed before every push and
pop, so along a run the chunks and the buffer together place every character where the steps have
read it (`Scan.Run.attributed_eq`). Turning chunks into tokens keeps the places: keywords and text stay
among the regions of their chunk, and what an embedded language makes of a chunk stands inside them
as a whole (`Lands`).
-/

namespace LexicalModes

open Pattern

/-! ### Characters and the regions around them -/

/-- A character and the classes of the regions around it, the outermost first. -/
abbrev Attributed := Char × List String

/-- The characters of a text, all in the same regions. -/
def attributedTo (classes : List String) (content : String) : List Attributed :=
  content.toList.map (·, classes)

@[simp] theorem attributedTo_empty (classes : List String) : attributedTo classes "" = [] := by
  simp [attributedTo]

@[simp] theorem attributedTo_append (classes : List String) (first second : String) :
    attributedTo classes (first ++ second) = attributedTo classes first ++ attributedTo classes second := by
  simp [attributedTo]

/-- The classes of the regions among scopes, given from the outermost on, up to the first that is
the output of an embedded language. -/
def ownClasses : List Scope → List String
  | .region className :: inner => className :: ownClasses inner
  | _ => []

@[simp] theorem ownClasses_regions (classes : List String) :
    ownClasses (classes.map Scope.region) = classes := by
  induction classes with
  | nil => rfl
  | cons className rest ih => rw [List.map_cons, ownClasses, ih]

theorem ownClasses_language (outer inner : List Scope) (name : String) :
    ownClasses (outer ++ .language name :: inner) = ownClasses outer := by
  induction outer with
  | nil => rfl
  | cons scope rest ih =>
      cases scope with
      | region className => rw [List.cons_append, ownClasses, ih, ownClasses]
      | language other => rfl

/-- The characters of tokens, each with the classes of the regions around it that are not inside an
embedded language. The scopes open before the tokens are given, the innermost first. -/
def attributed (opened : List Scope) : List Token → List Attributed
  | [] => []
  | t :: rest =>
    attributedTo (ownClasses opened.reverse) t.content ++
      match t.scopesAfter? opened with
      | some next => attributed next rest
      | none => []

theorem attributed_append {opened next : List Scope} {first : List Token}
    (h : scopesAfter? opened first = some next) (second : List Token) :
    attributed opened (first ++ second) = attributed opened first ++ attributed next second := by
  induction first generalizing opened with
  | nil => cases h; rfl
  | cons t rest ih =>
      rw [scopesAfter?_cons, Option.bind_eq_some_iff] at h
      obtain ⟨middle, ht, hrest⟩ := h
      simp only [List.cons_append, attributed, ht, ih hrest, List.append_assoc]

theorem attributed_leaves {tokens : List Token} (h : ∀ t ∈ tokens, t.isLeaf = true)
    (opened : List Scope) :
    attributed opened tokens = attributedTo (ownClasses opened.reverse) (plainText tokens) := by
  induction tokens with
  | nil => simp [attributed]
  | cons t rest ih =>
      have hrest := ih fun other hmem => h other (List.mem_cons_of_mem t hmem)
      simp only [attributed, Token.scopesAfter?_leaf (h t List.mem_cons_self), hrest, plainText_cons,
        attributedTo_append]

theorem attributed_leaf {t : Token} (ht : t.isLeaf = true) (opened : List Scope) :
    attributed opened [t] = attributedTo (ownClasses opened.reverse) t.content := by
  rw [attributed_leaves (by simpa using ht), plainText_cons, plainText_nil, String.append_empty]

theorem attributed_silent {tokens : List Token} (h : ∀ t ∈ tokens, t.content = "")
    (opened : List Scope) : attributed opened tokens = [] := by
  induction tokens generalizing opened with
  | nil => rfl
  | cons t rest ih =>
      have hrest := ih fun other hmem => h other (List.mem_cons_of_mem t hmem)
      rw [attributed, h t List.mem_cons_self, attributedTo_empty, List.nil_append]
      cases t.scopesAfter? opened with
      | none => rfl
      | some next => exact hrest next

theorem attributed_append_silent {opened : List Scope} {first second : List Token}
    (h : ∀ t ∈ second, t.content = "") :
    attributed opened (first ++ second) = attributed opened first := by
  induction first generalizing opened with
  | nil => exact attributed_silent h opened
  | cons t rest ih =>
      rw [List.cons_append, attributed, attributed]
      cases t.scopesAfter? opened with
      | none => rfl
      | some next => simp only [ih]

/-- Whatever an embedded language makes of a text is in the regions around it. -/
theorem attributed_language {tokens : List Token} {inner next : List Scope}
    (h : scopesAfter? inner tokens = some next) (name : String) (outer : List Scope) :
    attributed (inner ++ .language name :: outer) tokens =
      attributedTo (ownClasses outer.reverse) (plainText tokens) := by
  -- What the tokens open lies inside the language, so the classes outside stay the same.
  induction tokens generalizing inner with
  | nil => simp [attributed]
  | cons t rest ih =>
      rw [scopesAfter?_cons, Option.bind_eq_some_iff] at h
      obtain ⟨middle, ht, hrest⟩ := h
      have hframe := Token.scopesAfter?_frame ht (.language name :: outer)
      have hclasses : ownClasses (inner ++ .language name :: outer).reverse =
          ownClasses outer.reverse := by
        rw [List.reverse_append, List.reverse_cons, List.append_assoc, List.singleton_append,
          ownClasses_language]
      simp only [attributed, hframe, hclasses, ih hrest, plainText_cons, attributedTo_append]

namespace Stream

theorem attributed_push {s : Stream} {opened : List Scope}
    (h : scopesAfter? [] s.toList = some opened) (t : Token) :
    attributed [] (s.push t).toList = attributed [] s.toList ++ attributed opened [t] := by
  rw [toList_push, attributed_append h]

theorem attributed_pushText {s : Stream} {opened : List Scope}
    (h : scopesAfter? [] s.toList = some opened) (content : String) :
    attributed [] (s.pushText content).toList =
      attributed [] s.toList ++ attributedTo (ownClasses opened.reverse) content := by
  have htext : ∀ content, attributed opened [.text content] =
      attributedTo (ownClasses opened.reverse) content := fun _ => attributed_leaf rfl opened
  rcases pushText_cases s content with ⟨rfl, hpush⟩ | ⟨earlier, before, hs, hpush⟩ | hpush
  · rw [hpush, attributedTo_empty, List.append_nil]
  · have hearlier : scopesAfter? [] earlier = some opened := by
      rw [hs, scopesAfter?_append] at h
      exact (Option.bind_fun_some _).symm.trans h
    rw [hpush, hs, attributed_append hearlier, attributed_append hearlier, htext, htext, attributedTo_append,
      List.append_assoc]
  · rw [hpush, attributed_append h, htext]

/-- Joining leaves to a stream places their text in the regions that the stream leaves open. -/
theorem attributed_appendJoined {s : Stream} {opened : List Scope} {tokens : List Token}
    (h : scopesAfter? [] s.toList = some opened) (hleaves : ∀ t ∈ tokens, t.isLeaf = true) :
    attributed [] (s.appendJoined tokens).toList =
      attributed [] s.toList ++ attributedTo (ownClasses opened.reverse) (plainText tokens) := by
  induction tokens generalizing s with
  | nil => simp [appendJoined]
  | cons t rest ih =>
      have hleaf : t.isLeaf = true := hleaves t List.mem_cons_self
      have hnext : scopesAfter? [] (s.pushJoined t).toList = some opened := by
        rw [scopesAfter?_pushJoined, h]
        exact Token.scopesAfter?_leaf hleaf opened
      have hfirst : attributed [] (s.pushJoined t).toList =
          attributed [] s.toList ++ attributedTo (ownClasses opened.reverse) t.content := by
        cases t with
        | text content => exact attributed_pushText h content
        | keyword className content =>
            change attributed [] (s.push (.keyword className content)).toList = _
            rw [attributed_push h, attributed_leaf hleaf]
        | begins scope => cases hleaf
        | ends scope => cases hleaf
      change attributed [] ((s.pushJoined t).appendJoined rest).toList = _
      rw [ih hnext fun other hmem => hleaves other (List.mem_cons_of_mem t hmem), hfirst,
        plainText_cons, attributedTo_append, List.append_assoc]

end Stream

/-! ### From events to tokens -/

/-- The token of an event if chunks are left as they are. -/
def Event.token? : Event → Option Token
  | .begins className => some (.begins (.region className))
  | .ends className => some (.ends (.region className))
  | .chunk _ content => some (.text content)
  | .score _ => none

def rawTokens (events : List Event) : List Token := events.filterMap Event.token?

theorem rawTokens_append (first second : List Event) :
    rawTokens (first ++ second) = rawTokens first ++ rawTokens second :=
  List.filterMap_append

theorem scopesAfter?_rawTokens (opened : List Scope) (events : List Event) :
    scopesAfter? opened (rawTokens events) = scopesAfter? opened (boundaries events) := by
  induction events generalizing opened with
  | nil => rfl
  | cons event rest ih =>
      cases event with
      | begins className => exact ih _
      | ends className =>
          change (Token.scopesAfter? opened _).bind _ = (Token.scopesAfter? opened _).bind _
          exact Option.bind_congr fun next _ => ih next
      | chunk mode content => exact ih opened
      | score weight => exact ih opened

/-- Where characters land that were read in regions: in the same regions, one by one, or together
with all others of a chunk, as what a language makes of the chunk. -/
inductive Lands (embedding : Embedding) (requests : List Request) :
    List Attributed → List Attributed → Prop
  | nil : Lands embedding requests [] []
  | own {read landed : List Attributed} (h : Lands embedding requests read landed)
      (piece : List Attributed) : Lands embedding requests (read ++ piece) (landed ++ piece)
  | embedded {read landed : List Attributed} {request : Request} {result : Highlighted}
      (h : Lands embedding requests read landed) (classes : List String)
      (hrequest : request ∈ requests) (hanswer : embedding.Answers request result)
      (hlanguage : result.language.isSome = true) :
      Lands embedding requests (read ++ attributedTo classes request.content)
        (landed ++ attributedTo classes (plainText result.tokens))

/-- Where embedded languages keep the text, every character lands where it was read. -/
theorem Lands.eq_of_plainText {embedding : Embedding} {requests : List Request}
    {read landed : List Attributed} (h : Lands embedding requests read landed)
    (hkeep : ∀ request ∈ requests, ∀ result, embedding.Answers request result →
      plainText result.tokens = request.content) : landed = read := by
  induction h with
  | nil => rfl
  | own _ piece ih => rw [ih]
  | embedded _ classes hrequest hanswer _ ih => rw [ih, hkeep _ hrequest _ hanswer]

/-- The embedding answers a request with well-nested tokens, and exactly with the text if it is not
by a language. -/
def Embedding.Proper (embedding : Embedding) (request : Request) : Prop :=
  ∀ result, embedding.Answers request result →
    WellNested result.tokens ∧ (result.language = none → result = .verbatim request.content)

theorem isLeaf_of_mem_verbatim {content : String} {t : Token}
    (h : t ∈ (Highlighted.verbatim content).tokens) : t.isLeaf = true := by
  rw [verbatim_eq] at h
  dsimp only at h
  split at h
  · cases h
  · rw [List.mem_singleton.1 h]
    rfl

/-- Only text that is left as it is has no language. -/
theorem hereditary_verbatim :
    Hereditary (fun _ => True) (fun _ => True)
      (fun content result => result.language = none → result = .verbatim content) where
  verbatim := fun _ _ => rfl
  byGrammar := by
    intro g embedding name ignoreIllegals stack content result _ _ _ hresult hnone
    rw [(givenBy_of_highlightByGrammar hresult).language] at hnone
    cases hnone

theorem Highlighter.proper_embedding (h : Highlighter) (depth : Nat) (request : Request) :
    (h.embedding depth).Proper request := by
  intro result hresult
  constructor
  · exact hereditary_wellNested.answer h.registry.allCompiled_true depth request
      (fun _ _ => trivial) result hresult
  · exact hereditary_verbatim.answer h.registry.allCompiled_true depth request
      (fun _ _ => trivial) result hresult

namespace Emission

variable {g : CompiledGrammar} {embedding : Embedding} {asked : List Request}

theorem lands_addEmbedded {e : Emission} {opened : List Scope} {read : List Attributed}
    (hopened : scopesAfter? [] e.stream.toList = some opened)
    (hlands : Lands embedding asked read (attributed [] e.stream.toList)) {request : Request}
    (hrequest : request ∈ asked) (hproper : embedding.Proper request) {result : Highlighted}
    (hanswer : embedding.Answers request result) (container : CompiledMode) :
    Lands embedding asked (read ++ attributedTo (ownClasses opened.reverse) request.content)
      (attributed [] (e.addEmbedded container result).stream.toList) := by
  obtain ⟨hnested, hverbatim⟩ := hproper result hanswer
  rw [stream_addEmbedded]
  cases hlanguage : result.language with
  | some name =>
      -- The end of the language adds no character, so only what stands before it matters.
      have hblock : attributed opened ([.begins (.language name)] ++ result.tokens) =
          attributedTo (ownClasses opened.reverse) (plainText result.tokens) := by
        have hbegins : scopesAfter? opened [.begins (.language name)] =
            some (.language name :: opened) := rfl
        rw [attributed_append hbegins, attributed_silent (by simp), List.nil_append]
        exact attributed_language hnested name opened
      simp only [Stream.toList_push, Stream.toList_append]
      rw [attributed_append_silent (by simp), List.append_assoc, attributed_append hopened, hblock]
      exact hlands.embedded _ hrequest hanswer (by rw [hlanguage]; rfl)
  | none =>
      rw [hverbatim hlanguage]
      dsimp only
      rw [Stream.attributed_appendJoined hopened fun t => isLeaf_of_mem_verbatim, plainText_verbatim]
      exact hlands.own _

/-- **One event.** What is read in the open regions lands in them. -/
theorem lands_add {e next : Emission} {event : Event} {opened : List Scope} {read : List Attributed}
    (hasked : ∀ request ∈ e.request? g event, request ∈ asked)
    (hproper : ∀ request ∈ asked, embedding.Proper request)
    (hopened : scopesAfter? [] e.stream.toList = some opened)
    (hlands : Lands embedding asked read (attributed [] e.stream.toList))
    (hadd : (e.add g embedding event).value = .ok next) :
    Lands embedding asked (read ++ attributed opened (rawTokens [event]))
      (attributed [] next.stream.toList) := by
  have htext : ∀ index content, attributed opened (rawTokens [.chunk index content]) =
      attributedTo (ownClasses opened.reverse) content := by
    intro index content
    exact attributed_leaf rfl opened
  cases add_eq_ok hadd with
  | begins className =>
      rw [Stream.attributed_push hopened]
      exact hlands.own _
  | ends className =>
      rw [Stream.attributed_push hopened]
      exact hlands.own _
  | score weight =>
      change Lands embedding asked (read ++ []) _
      rwa [List.append_nil]
  | classified hsub hclassify =>
      obtain ⟨leaves, rfl, hleaves, hcontent⟩ := classify_ok hclassify
      rw [htext, stream_score, Stream.attributed_appendJoined hopened hleaves, hcontent]
      exact hlands.own _
  | unregistered hsub hnone =>
      rw [htext, Stream.attributed_pushText hopened]
      exact hlands.own _
  | @fixed index content name result hsub hresult =>
      have hmem : .fixed name content (e.threads.lookup name) ∈ asked :=
        hasked _ (by simp [request?, hsub])
      rw [htext]
      refine lands_addEmbedded (e := e.keepThread name result.continuation) ?_ ?_ hmem
        (hproper _ hmem) hresult _
      · rwa [stream_keepThread]
      · rwa [stream_keepThread]
  | @auto index content names result hsub hresult =>
      have hmem : .auto names content ∈ asked := hasked _ (by simp [request?, hsub])
      rw [htext]
      exact lands_addEmbedded hopened hlands hmem (hproper _ hmem) hresult _

/-- **A run of events** that opens and closes regions properly. -/
theorem lands_addAll {e last : Emission} {events : List Event} {opened final : List Scope}
    {read : List Attributed}
    (hasked : ∀ request ∈ requests g embedding e events, request ∈ asked)
    (hproper : ∀ request ∈ asked, embedding.Proper request)
    (hopened : scopesAfter? [] e.stream.toList = some opened)
    (hevents : scopesAfter? opened (boundaries events) = some final)
    (hlands : Lands embedding asked read (attributed [] e.stream.toList))
    (hlast : (addAll g embedding e events).value = .ok last) :
    Lands embedding asked (read ++ attributed opened (rawTokens events))
      (attributed [] last.stream.toList) := by
  induction events generalizing e opened read with
  | nil =>
      cases hlast
      simpa [rawTokens, attributed] using hlands
  | cons event rest ih =>
      obtain ⟨next, hnext, hrest⟩ := addAll_cons_eq_ok hlast
      simp only [requests, hnext] at hasked
      have hfirst : ∀ request ∈ e.request? g event, request ∈ asked := fun request hmem =>
        hasked request (List.mem_append_left _ (Option.mem_toList.2 hmem))
      rw [← List.singleton_append, boundaries_append, scopesAfter?_append,
        Option.bind_eq_some_iff] at hevents
      obtain ⟨middle, hmiddle, hevents⟩ := hevents
      have hscopes : scopesAfter? [] next.stream.toList = some middle := by
        rw [scopesAfter?_add (fun request hmem result hresult =>
          (hproper request (hfirst request hmem) result hresult).1) hnext, hopened]
        exact hmiddle
      have hraw : scopesAfter? opened (rawTokens [event]) = some middle := by
        rw [scopesAfter?_rawTokens, hmiddle]
      rw [← List.singleton_append, rawTokens_append, attributed_append hraw, ← List.append_assoc]
      exact ih (fun request hmem => hasked request (List.mem_append_right _ hmem)) hscopes hevents
        (lands_add hfirst hproper hopened hlands hnext) hrest

end Emission

/-! ### What a step reads -/

def CompiledGrammar.Skipless (g : CompiledGrammar) : Prop :=
  ∀ mode ∈ g.modes.toList, mode.flags.skip = false

instance (g : CompiledGrammar) : Decidable g.Skipless :=
  inferInstanceAs (Decidable (∀ mode ∈ g.modes.toList, mode.flags.skip = false))

theorem CompiledGrammar.Skipless.mode {g : CompiledGrammar} (h : g.Skipless)
    (index : ModeIndex) : (g.mode index).flags.skip = false := by
  rw [CompiledGrammar.mode]
  cases hmode : g.modes[index]? with
  | none => rfl
  | some mode => exact h mode (Array.mem_toList_iff.2 (Array.mem_of_getElem? hmode))

namespace Scan

variable (g : CompiledGrammar) (text : Text)

/-- The characters that a step gathers, each with the classes it is read in: those of the labelled
frames before the step, or after it for a begin that belongs to the mode it opens and for an end
that is kept out of the modes it closes. -/
def Step.readings (step : Step) : List Attributed :=
  let before := openClasses g step.state.stack
  let after := openClasses g (step.result g text).stack
  attributedTo before (step.before text) ++
    match step.treatment with
    | .opens child _ =>
      let flags := (g.mode child).flags
      if flags.excludeBegin then attributedTo before step.lexeme
      else if flags.returnBegin then []
      else attributedTo after step.lexeme
    | .closes _ =>
      let flags := (step.state.top g).flags
      if flags.excludeEnd then attributedTo after step.lexeme
      else if flags.returnEnd then []
      else attributedTo before step.lexeme
    | .stepsOver => attributedTo before (text.slice step.offset (step.offset + 1))
    | .passes => attributedTo before step.lexeme

/-- The characters of the chunks so far. -/
def chunked (s : Scan) : List Attributed := LexicalModes.attributed [] (rawTokens s.events.reverse)

/-- The characters of the chunks so far, and those of the buffer in the open regions. -/
def attributed (s : Scan) : List Attributed := s.chunked ++ attributedTo (openClasses g s.stack) s.buffer

theorem chunked_silent {s : Scan} {events : List Event} {stack : Stack}
    (h : ∀ event ∈ events, event.content = "") :
    chunked { s with stack := stack, events := events ++ s.events } = s.chunked := by
  rw [chunked, List.reverse_append, rawTokens_append]
  refine attributed_append_silent fun t ht => ?_
  obtain ⟨event, hevent, htoken⟩ := List.mem_filterMap.1 ht
  have hcontent := h event (List.mem_reverse.1 hevent)
  cases event <;> cases htoken <;> first | rfl | exact hcontent

variable {g text}

theorem attributed_gather (s : Scan) (content : String) :
    (s.gather content).attributed g = s.attributed g ++ attributedTo (openClasses g s.stack) content := by
  simp only [attributed, gather, attributedTo_append, List.append_assoc]
  rfl

/-- Flushing puts the buffer into the regions of the labelled frames. -/
theorem chunked_flush {s : Scan} (hs : s.InStep g) : s.flush.chunked = s.attributed g := by
  by_cases hempty : s.buffer.isEmpty = true
  · rw [flush, if_pos hempty, attributed, String.isEmpty_iff.1 hempty, attributedTo_empty, List.append_nil]
  · -- The new chunk stands where the events so far have left the regions: at those of the frames.
    have hopened : scopesAfter? [] (rawTokens s.events.reverse) =
        some ((openClasses g s.stack).map Scope.region).reverse := by
      rw [scopesAfter?_rawTokens, hs, frameScopes_eq_openClasses]
    rw [flush, if_neg hempty, chunked, List.reverse_cons, rawTokens_append, attributed_append hopened]
    change s.chunked ++ LexicalModes.attributed _ [.text s.buffer] = _
    rw [attributed_leaf rfl, List.reverse_reverse, ownClasses_regions]
    rfl

@[simp] theorem chunked_start (s : Scan) (mode : ModeIndex) (closer : Option Closer) :
    (s.start g mode closer).chunked = s.chunked := by
  refine chunked_silent fun event hmem => ?_
  obtain ⟨className, -, rfl⟩ := Option.map_eq_some_iff.1 (Option.mem_toList.1 hmem)
  rfl

@[simp] theorem buffer_closeModes (count : Nat) (s : Scan) :
    (closeModes g count s).buffer = s.buffer := by
  induction count generalizing s with
  | zero => rfl
  | succ count ih =>
      rw [closeModes]
      split
      · rfl
      · exact ih _

@[simp] theorem chunked_closeModes (count : Nat) (s : Scan) :
    (closeModes g count s).chunked = s.chunked := by
  induction count generalizing s with
  | zero => rfl
  | succ count ih =>
      rw [closeModes]
      split
      case h_1 => rfl
      case h_2 frame below hframes =>
        rw [ih]
        exact chunked_silent fun event hmem =>
          content_of_mem_closingEvents (List.mem_reverse.1 hmem)

theorem chunked_closeTo (s : Scan) (depth : Nat) :
    (s.closeTo g depth).chunked = s.chunked ∧ (s.closeTo g depth).buffer = s.buffer := by
  rw [closeTo]
  split
  · split
    · exact ⟨(chunked_start _ _ _).trans (chunked_closeModes _ _), buffer_closeModes _ _⟩
    · exact ⟨chunked_closeModes _ _, buffer_closeModes _ _⟩
  · exact ⟨chunked_closeModes _ _, buffer_closeModes _ _⟩

/-- What is gathered before a mode opens is flushed; the buffer then holds the lexeme if it belongs
to the mode. -/
theorem chunked_takeBegin {s : Scan} (hs : s.InStep g) {flags : ModeFlags}
    (hskip : flags.skip = false) (lexeme : String) :
    (s.takeBegin flags lexeme).chunked = s.attributed g ++
        (if flags.excludeBegin then attributedTo (openClasses g s.stack) lexeme else []) ∧
      (s.takeBegin flags lexeme).buffer =
        if flags.excludeBegin then "" else if flags.returnBegin then "" else lexeme := by
  rcases takeBegin_cases s flags lexeme with
    ⟨hskipped, -⟩ | ⟨-, hexclude, h⟩ | ⟨-, hexclude, hreturn, h⟩ | ⟨-, hexclude, hreturn, h⟩
  · rw [hskip] at hskipped
    cases hskipped
  · rw [h, if_pos hexclude, if_pos hexclude, ← attributed_gather]
    exact ⟨chunked_flush (hs.gather lexeme), buffer_flush _⟩
  · simp only [h, hexclude, hreturn, Bool.false_eq_true, if_false, if_true, List.append_nil]
    exact ⟨chunked_flush hs, buffer_flush s⟩
  · simp only [h, hexclude, hreturn, Bool.false_eq_true, if_false, List.append_nil, and_true]
    exact chunked_flush hs

/-- What is gathered before modes close is flushed; the buffer then holds the lexeme if it is kept
out of them. -/
theorem chunked_takeEnd {s : Scan} (hs : s.InStep g) {flags : ModeFlags}
    (hskip : flags.skip = false) (lexeme : String) :
    (s.takeEnd flags lexeme).chunked = s.attributed g ++
        (if flags.excludeEnd then []
          else if flags.returnEnd then [] else attributedTo (openClasses g s.stack) lexeme) ∧
      (s.takeEnd flags lexeme).buffer = if flags.excludeEnd then lexeme else "" := by
  rcases takeEnd_cases s flags lexeme with
    ⟨hskipped, -⟩ | ⟨-, hexclude, h⟩ | ⟨-, hexclude, hreturn, h⟩ | ⟨-, hexclude, hreturn, h⟩
  · rw [hskip] at hskipped
    cases hskipped
  · simp only [h, hexclude, if_true, List.append_nil, and_true]
    exact chunked_flush hs
  · simp only [h, hexclude, hreturn, Bool.false_eq_true, if_false, if_true, List.append_nil]
    exact ⟨chunked_flush hs, buffer_flush s⟩
  · simp only [h, hexclude, hreturn, Bool.false_eq_true, if_false, ← attributed_gather]
    exact ⟨chunked_flush (hs.gather lexeme), buffer_flush _⟩

theorem attributed_enter (hg : g.Skipless) {s : Scan} (hs : s.InStep g) (child : ModeIndex)
    (closer : Option Closer) (lexeme : String) (offset : Nat) :
    (s.enter g child closer lexeme offset).attributed g = s.attributed g ++
      (if (g.mode child).flags.excludeBegin then attributedTo (openClasses g s.stack) lexeme
        else if (g.mode child).flags.returnBegin then []
        else attributedTo (openClasses g (s.enter g child closer lexeme offset).stack) lexeme) := by
  obtain ⟨hchunked, hbuffer⟩ := chunked_takeBegin hs (hg.mode child) lexeme
  have henter : (s.enter g child closer lexeme offset).attributed g =
      (s.takeBegin (g.mode child).flags lexeme).chunked ++
        attributedTo (openClasses g (s.enter g child closer lexeme offset).stack)
          (s.takeBegin (g.mode child).flags lexeme).buffer := by
    rw [← chunked_start (g := g) _ child closer]
    rfl
  rw [henter, hchunked, hbuffer, List.append_assoc]
  by_cases hexclude : (g.mode child).flags.excludeBegin = true
  · simp only [if_pos hexclude, attributedTo_empty, List.append_nil]
  · simp only [if_neg hexclude, List.nil_append]
    by_cases hreturn : (g.mode child).flags.returnBegin = true
    · simp only [if_pos hreturn, attributedTo_empty]
    · simp only [if_neg hreturn]

theorem attributed_leave (hg : g.Skipless) {s : Scan} (hs : s.InStep g) (depth : Nat)
    (lexeme : String) (offset : Nat) :
    (s.leave g depth lexeme offset).attributed g = s.attributed g ++
      (if (s.top g).flags.excludeEnd then
          attributedTo (openClasses g (s.leave g depth lexeme offset).stack) lexeme
        else if (s.top g).flags.returnEnd then []
        else attributedTo (openClasses g s.stack) lexeme) := by
  obtain ⟨hchunked, hbuffer⟩ := chunked_takeEnd hs (hg.mode s.stack.current.mode) lexeme
  obtain ⟨hclosed, hkept⟩ := chunked_closeTo (g := g) (s.takeEnd (s.top g).flags lexeme) depth
  have hleave : (s.leave g depth lexeme offset).attributed g =
      (s.takeEnd (s.top g).flags lexeme).chunked ++
        attributedTo (openClasses g (s.leave g depth lexeme offset).stack)
          (s.takeEnd (s.top g).flags lexeme).buffer := by
    rw [← hclosed, ← hkept]
    rfl
  rw [hleave, top, hchunked, hbuffer, List.append_assoc]
  by_cases hexclude : (g.mode s.stack.current.mode).flags.excludeEnd = true
  · simp only [if_pos hexclude, List.nil_append]
  · simp only [if_neg hexclude, attributedTo_empty, List.append_nil]

/-- **One step** attributes the characters it gathers as it reads them. -/
theorem attributed_result (hg : g.Skipless) (step : Step) (hs : step.state.InStep g) :
    (step.result g text).attributed g = step.state.attributed g ++ step.readings g text := by
  obtain ⟨state, lexeme, offset, treatment⟩ := step
  have hgathered : (state.gather (text.slice state.index offset)).settled.attributed g =
      state.attributed g ++
        attributedTo (openClasses g state.stack) (text.slice state.index offset) :=
    attributed_gather state _
  have hbefore : (state.gather (text.slice state.index offset)).settled.InStep g := hs
  rw [Step.readings, ← List.append_assoc]
  change _ = state.attributed g ++
    attributedTo (openClasses g state.stack) (text.slice state.index offset) ++ _
  rw [← hgathered]
  cases treatment with
  | opens child closer => exact attributed_enter hg hbefore child closer lexeme offset
  | closes depth => exact attributed_leave hg hbefore depth lexeme offset
  | stepsOver => exact attributed_gather (state.gather _).settled _
  | passes => exact attributed_gather (state.gather _).settled _

variable {ignoreIllegals : Bool}

/-- **A run** attributes every character as the step that gathered it read it. -/
theorem Run.attributed_eq (hg : g.Skipless) {stack : Stack} {steps : List Step} {last : Scan}
    (hrun : Run g ignoreIllegals text (initial g stack) steps last) :
    last.attributed g = steps.flatMap (Step.readings g text) := by
  induction hrun with
  | nil =>
      have hchunked : (initial g stack).chunked = [] := by
        refine attributed_silent (fun t ht => ?_) []
        obtain ⟨event, hevent, htoken⟩ := List.mem_filterMap.1 ht
        simp only [initial, List.reverse_reverse, List.mem_map] at hevent
        obtain ⟨className, -, rfl⟩ := hevent
        cases htoken
        rfl
      rw [attributed, hchunked]
      exact attributedTo_empty (openClasses g stack)
  | snoc hbefore htaken ih =>
      rw [attributed_result hg _ (inStep_of_reaches hbefore.reaches), ih, List.flatMap_append,
        List.flatMap_singleton]

variable (g text) in
/-- What a run to its end reads: what its steps read, and the rest of the text in the regions that
are open there. -/
def readingsOf (steps : List Step) (last : Scan) : List Attributed :=
  steps.flatMap (Step.readings g text) ++
    attributedTo (openClasses g last.stack) (text.slice last.index text.size)

end Scan

theorem attributed_scan {g : CompiledGrammar} (hg : g.Skipless) {limit : StepLimit}
    {ignoreIllegals : Bool} {stack : Stack} {content : String} {steps : List Scan.Step}
    {last : Scan}
    (hrun : Scan.Run g ignoreIllegals (Text.ofString content) (Scan.initial g stack) steps last)
    (hevents : (scan g limit ignoreIllegals stack content).events =
      (last.finish (Text.ofString content)).events.reverse ++
        (Scan.openClasses g last.stack).reverse.map Event.ends) :
    attributed [] (rawTokens (scan g limit ignoreIllegals stack content).events) =
      Scan.readingsOf g (Text.ofString content) steps last := by
  have hfinish : (last.finish (Text.ofString content)).chunked =
      Scan.readingsOf g (Text.ofString content) steps last := by
    rw [Scan.finish, Scan.chunked_flush ((Scan.inStep_of_reaches hrun.reaches).gather _),
      Scan.attributed_gather, hrun.attributed_eq hg, Scan.readingsOf]
  rw [hevents, rawTokens_append, attributed_append_silent]
  · exact hfinish
  · intro t ht
    obtain ⟨event, hevent, htoken⟩ := List.mem_filterMap.1 ht
    obtain ⟨className, -, rfl⟩ := List.mem_map.1 hevent
    cases htoken
    rfl

/-- **Text lands in the region it was read in.** At every state of a run, the characters that the
steps have gathered are in the regions they were read in: those of the tokens, and those of the
buffer in the regions still open. At the end, so is all text in the tokens of the result, the rest
after the last lexeme included. What an embedded language makes of a chunk is as a whole in the
regions of the chunk, and character by character if the language keeps the text. -/
theorem text_lands_where_read (h : Highlighter) (depth : Nat) (g : CompiledGrammar)
    (hg : g.Skipless) (ignoreIllegals : Bool) (stack : Stack) (content : String) :
    (∀ (steps : List Scan.Step) (last : Scan) (e : Emission),
      Scan.Run g ignoreIllegals (Text.ofString content) (Scan.initial g stack) steps last →
      (Emission.addAll g (h.embedding depth) {} last.events.reverse).value = .ok e →
      Lands (h.embedding depth)
        (Emission.requests g (h.embedding depth) {} last.events.reverse)
        (steps.flatMap (Scan.Step.readings g (Text.ofString content)))
        (attributed [] e.stream.toList ++
          attributedTo (Scan.openClasses g last.stack) last.buffer)) ∧
    (∀ (name : String) (result : Highlighted),
      (highlightByGrammar g (h.embedding depth) name ignoreIllegals stack content).value =
        .ok result →
      ∃ steps last,
        Scan.Run g ignoreIllegals (Text.ofString content) (Scan.initial g stack) steps last ∧
        last.step? g ignoreIllegals (Text.ofString content) = .ok none ∧
        Lands (h.embedding depth)
          (Emission.requests g (h.embedding depth) {}
            (scan g h.stepLimit ignoreIllegals stack content).events)
          (Scan.readingsOf g (Text.ofString content) steps last) (attributed [] result.tokens) ∧
        ((∀ request ∈ Emission.requests g (h.embedding depth) {}
            (scan g h.stepLimit ignoreIllegals stack content).events,
          ∀ answer, (h.embedding depth).Answers request answer →
            plainText answer.tokens = request.content) →
          attributed [] result.tokens =
            Scan.readingsOf g (Text.ofString content) steps last)) := by
  refine ⟨?_, ?_⟩
  · intro steps last e hrun he
    have hlands := Emission.lands_addAll (fun _ hrequest => hrequest)
      (fun request _ => h.proper_embedding depth request) rfl
      (Scan.inStep_of_reaches hrun.reaches) .nil he
    rw [← hrun.attributed_eq hg]
    exact hlands.own _
  · intro name result hresult
    obtain ⟨e, finished, he, hfinished, rfl⟩ := highlightByGrammar_eq_ok hresult
    rw [Highlighter.stepLimit_embedding] at he hfinished
    obtain ⟨steps, last, hrun, ⟨hdone, hscan⟩ | ⟨fault, -, hscan⟩⟩ :=
      exists_run_of_scan g h.stepLimit ignoreIllegals stack content
    · have hlands := Emission.lands_addAll (fun _ hrequest => hrequest)
        (fun request _ => h.proper_embedding depth request) rfl
        (wellNested_boundaries_scan hfinished) .nil he
      rw [List.nil_append, attributed_scan hg hrun (by rw [hscan])] at hlands
      exact ⟨steps, last, hrun, hdone, hlands, hlands.eq_of_plainText⟩
    · rw [hscan] at hfinished
      cases hfinished

/-- A language with quoted text of another language, whose quotes stay outside, and with remarks,
whose end is read again after them. -/
def sampleQuoting : Language where
  name := "quoting"
  grammar := ⟨#[{ contains := [.mode 1, .mode 2], lexemes := some "z" },
    { className := some "quoted", beginPattern := some "<", endPattern := some ">"
      lexemes := some "z", subLanguage := some (.fixed "inner")
      flags := { excludeBegin := true, excludeEnd := true } },
    { className := some "remark", beginPattern := some "--", endPattern := some "e"
      lexemes := some "z", flags := { returnEnd := true } }], by decide⟩

/-- The quotes and what follows the remark are in no region, the dashes are part of the remark, and
the number in the quoted text is in the region of the quoted text. -/
theorem text_lands_where_read_sample :
    ∃ g result, sampleQuoting.compile = .ok g ∧ g.Skipless ∧
      (highlightByGrammar g (sampleHighlighter.embedding 1) "quoting" false .empty
        "a<12>--be").value = .ok result ∧
      attributed [] result.tokens = attributedTo [] "a<" ++ attributedTo ["quoted"] "12" ++
        attributedTo [] ">" ++ attributedTo ["remark"] "--b" ++ attributedTo [] "e" ∧
      ∃ steps last,
        Scan.Run g false (Text.ofString "a<12>--be") (Scan.initial g .empty) steps last ∧
        Lands (sampleHighlighter.embedding 1)
          (Emission.requests g (sampleHighlighter.embedding 1) {}
            (scan g sampleHighlighter.stepLimit false .empty "a<12>--be").events)
          (Scan.readingsOf g (Text.ofString "a<12>--be") steps last)
          (attributed [] result.tokens) := by
  obtain ⟨g, hcompile⟩ := exists_of_isOk (show sampleQuoting.compile.isOk = true by
    decide +kernel)
  have hskipless : g.Skipless := (show ∀ g, sampleQuoting.compile = .ok g → g.Skipless by
    decide +kernel) g hcompile
  obtain ⟨result, hresult, htest⟩ := exists_of_any ((show ∀ g, sampleQuoting.compile = .ok g →
    (highlightByGrammar g (sampleHighlighter.embedding 1) "quoting" false .empty
      "a<12>--be").value.toOption.any (fun r => attributed [] r.tokens == attributedTo [] "a<" ++
        attributedTo ["quoted"] "12" ++ attributedTo [] ">" ++ attributedTo ["remark"] "--b" ++
          attributedTo [] "e") = true by decide +kernel) g hcompile)
  obtain ⟨steps, last, hrun, -, hlands, -⟩ := (text_lands_where_read sampleHighlighter 1 g hskipless
    false .empty "a<12>--be").2 "quoting" result hresult
  exact ⟨g, result, hcompile, hskipless, hresult, beq_iff_eq.1 htest, steps, last, hrun, hlands⟩

end LexicalModes
