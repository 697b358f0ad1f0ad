import LexicalModes.Proofs.Calls
import LexicalModes.Proofs.Classify

/-!
The source text is conserved. During a scan the text of the chunks and the buffer together are the
text up to where the next search starts (`Scan.textRead_of_reaches`), and turning chunks into tokens
keeps their text. Two things can break this, and both are excluded: a mode whose boundary is both
read again and kept (`ModeFlags.Lossless`), and an empty lexeme that means nothing before the end
of the text, which the scan passes over together with the character after it (`Scan.passesOver`).
-/

namespace LexicalModes

open Pattern

/-- No boundary is both read again and kept: what is returned is neither skipped nor excluded. -/
def ModeFlags.Lossless (flags : ModeFlags) : Prop :=
  (flags.returnBegin && (flags.skip || flags.excludeBegin)) = false ∧
    (flags.returnEnd && (flags.skip || flags.excludeEnd)) = false

instance (flags : ModeFlags) : Decidable flags.Lossless :=
  inferInstanceAs (Decidable (_ ∧ _))

/-- All modes of the grammar are lossless. -/
def CompiledGrammar.Lossless (g : CompiledGrammar) : Prop :=
  ∀ mode ∈ g.modes.toList, mode.flags.Lossless

instance (g : CompiledGrammar) : Decidable g.Lossless :=
  inferInstanceAs (Decidable (∀ mode ∈ g.modes.toList, mode.flags.Lossless))

theorem CompiledGrammar.Lossless.mode {g : CompiledGrammar} (h : g.Lossless)
    (index : ModeIndex) : (g.mode index).flags.Lossless := by
  rw [CompiledGrammar.mode]
  cases hmode : g.modes[index]? with
  | none => decide
  | some mode => exact h mode (Array.mem_toList_iff.2 (Array.mem_of_getElem? hmode))

/-! ### The text of events -/

/-- The text that an event carries. -/
def Event.content : Event → String
  | .chunk _ content => content
  | .begins _ | .ends _ | .score _ => ""

/-- The text of events in order. -/
def eventText (events : List Event) : String := String.join (events.map Event.content)

@[simp] theorem eventText_nil : eventText [] = "" := by
  rw [eventText, List.map_nil, String.join_nil]

@[simp] theorem eventText_cons (event : Event) (events : List Event) :
    eventText (event :: events) = event.content ++ eventText events := by
  rw [eventText, List.map_cons, String.join_cons]
  rfl

@[simp] theorem eventText_append (first second : List Event) :
    eventText (first ++ second) = eventText first ++ eventText second := by
  rw [eventText, List.map_append, String.join_append]
  rfl

/-- Events without text add none. -/
theorem eventText_eq_empty {events : List Event} (h : ∀ event ∈ events, event.content = "") :
    eventText events = "" := by
  induction events with
  | nil => exact eventText_nil
  | cons event rest ih =>
      rw [eventText_cons, h event List.mem_cons_self, String.empty_append]
      exact ih fun other hmem => h other (List.mem_cons_of_mem event hmem)

namespace Scan

/-- The text read so far: that of the chunks, then that of the buffer. -/
def textRead (s : Scan) : String := eventText s.events.reverse ++ s.buffer

@[simp] theorem textRead_gather (s : Scan) (content : String) :
    (s.gather content).textRead = s.textRead ++ content := by
  rw [textRead, textRead, String.append_assoc]
  rfl

@[simp] theorem textRead_settled (s : Scan) : s.settled.textRead = s.textRead := rfl

@[simp] theorem textRead_moveTo (s : Scan) (index : Nat) :
    textRead { s with index := index } = s.textRead := rfl

@[simp] theorem textRead_stepOver (s : Scan) (text : Text) (offset : Nat) :
    (s.stepOver text offset).textRead = s.textRead ++ text.slice offset (offset + 1) :=
  textRead_gather s _

@[simp] theorem textRead_flush (s : Scan) : s.flush.textRead = s.textRead := by
  by_cases hempty : s.buffer.isEmpty = true
  · rw [flush, if_pos hempty]
  · rw [flush, if_neg hempty]
    simp [textRead, Event.content]

theorem buffer_flush (s : Scan) : s.flush.buffer = "" := by
  by_cases hempty : s.buffer.isEmpty = true
  · rw [flush, if_pos hempty]
    exact String.isEmpty_iff.1 hempty
  · rw [flush, if_neg hempty]

/-- Events without text leave the text read as it is. -/
theorem textRead_silent {s : Scan} {events : List Event} {stack : Stack}
    (h : ∀ event ∈ events, event.content = "") :
    textRead { s with stack := stack, events := events ++ s.events } = s.textRead := by
  have hreverse : eventText events.reverse = "" :=
    eventText_eq_empty fun event hmem => h event (List.mem_reverse.1 hmem)
  simp [textRead, hreverse]

variable (g : CompiledGrammar)

@[simp] theorem textRead_start (s : Scan) (mode : ModeIndex) (closer : Option Closer) :
    (s.start g mode closer).textRead = s.textRead := by
  refine textRead_silent fun event hmem => ?_
  obtain ⟨className, -, rfl⟩ := Option.map_eq_some_iff.1 (Option.mem_toList.1 hmem)
  rfl

theorem content_of_mem_closingEvents {mode : CompiledMode} {event : Event}
    (h : event ∈ closingEvents mode) : event.content = "" := by
  rw [closingEvents] at h
  rcases List.mem_append.1 h with hmem | hmem
  · obtain ⟨className, -, rfl⟩ := Option.map_eq_some_iff.1 (Option.mem_toList.1 hmem)
    rfl
  · split at hmem
    · rw [List.mem_singleton.1 hmem]
      rfl
    · cases hmem

@[simp] theorem textRead_closeModes (count : Nat) (s : Scan) :
    (closeModes g count s).textRead = s.textRead := by
  induction count generalizing s with
  | zero => rfl
  | succ count ih =>
      rw [closeModes]
      split
      case h_1 => rfl
      case h_2 frame below hframes =>
        rw [ih]
        exact textRead_silent fun event hmem =>
          content_of_mem_closingEvents (List.mem_reverse.1 hmem)

/-- A flushed scan that goes on with the lexeme in its buffer has read the lexeme. -/
theorem textRead_reload (s : Scan) (lexeme : String) :
    textRead { s.flush with buffer := lexeme } = s.textRead ++ lexeme := by
  rw [← textRead_flush s, textRead, textRead, buffer_flush, String.append_empty]

/-- The lexeme that begins a mode is read unless it is to be read again. -/
theorem textRead_takeBegin {flags : ModeFlags} (hflags : flags.Lossless) (s : Scan)
    (lexeme : String) :
    (s.takeBegin flags lexeme).textRead =
      s.textRead ++ if flags.returnBegin then "" else lexeme := by
  obtain ⟨hbegin, -⟩ := hflags
  by_cases hskip : flags.skip = true
  · have hreturn : flags.returnBegin = false := by simpa [hskip] using hbegin
    rw [takeBegin, if_pos hskip, textRead_gather, hreturn, if_neg Bool.false_ne_true]
  · rw [takeBegin, if_neg hskip]
    by_cases hexclude : flags.excludeBegin = true
    · have hreturn : flags.returnBegin = false := by simpa [hexclude] using hbegin
      simp only [hexclude, hreturn, Bool.or_true, if_true]
      rw [textRead_flush, textRead_gather, if_neg Bool.false_ne_true]
    · by_cases hreturn : flags.returnBegin = true
      · simp only [hexclude, hreturn, Bool.true_or, if_true]
        rw [if_neg Bool.false_ne_true, textRead_flush, String.append_empty]
      · simp only [hexclude, hreturn, Bool.or_false]
        simp only [if_neg Bool.false_ne_true]
        exact textRead_reload s lexeme

/-- The lexeme that ends modes is read unless it is to be read again. -/
theorem textRead_takeEnd {flags : ModeFlags} (hflags : flags.Lossless) (s : Scan)
    (lexeme : String) :
    (s.takeEnd flags lexeme).textRead = s.textRead ++ if flags.returnEnd then "" else lexeme := by
  obtain ⟨-, hend⟩ := hflags
  by_cases hskip : flags.skip = true
  · have hreturn : flags.returnEnd = false := by simpa [hskip] using hend
    rw [takeEnd, if_pos hskip, textRead_gather, hreturn, if_neg Bool.false_ne_true]
  · rw [takeEnd, if_neg hskip]
    by_cases hexclude : flags.excludeEnd = true
    · have hreturn : flags.returnEnd = false := by simpa [hexclude] using hend
      simp only [hexclude, hreturn, Bool.or_true, if_true]
      rw [if_neg Bool.false_ne_true]
      exact textRead_reload s lexeme
    · by_cases hreturn : flags.returnEnd = true
      · simp only [hexclude, hreturn, Bool.true_or, if_true]
        rw [if_neg Bool.false_ne_true, textRead_flush, String.append_empty]
      · simp only [hexclude, hreturn, Bool.or_false]
        simp only [if_neg Bool.false_ne_true]
        rw [textRead_flush, textRead_gather]

/-- Closing frames and opening a follower reads nothing. -/
@[simp] theorem textRead_closeTo (s : Scan) (depth : Nat) :
    (s.closeTo g depth).textRead = s.textRead := by
  rw [closeTo]
  split
  · split
    · rw [textRead_start, textRead_closeModes]
    · rw [textRead_closeModes]
  · rw [textRead_closeModes]

theorem textRead_enter {child : ModeIndex} (hflags : (g.mode child).flags.Lossless) (s : Scan)
    (closer : Option Closer) (lexeme : String) (offset : Nat) :
    (s.enter g child closer lexeme offset).textRead =
      s.textRead ++ if (g.mode child).flags.returnBegin then "" else lexeme := by
  rw [enter_eq, ← textRead_takeBegin hflags]
  exact textRead_start g _ child closer

theorem textRead_leave (s : Scan) (hflags : (s.top g).flags.Lossless) (depth : Nat)
    (lexeme : String) (offset : Nat) :
    (s.leave g depth lexeme offset).textRead =
      s.textRead ++ if (s.top g).flags.returnEnd then "" else lexeme := by
  rw [leave_eq, textRead_moveTo, textRead_closeTo, textRead_takeEnd hflags]

/-- Where the search goes on after a mode was opened. -/
theorem index_enter (s : Scan) (child : ModeIndex) (closer : Option Closer) (lexeme : String)
    (offset : Nat) :
    (s.enter g child closer lexeme offset).index =
      if (g.mode child).flags.returnBegin then offset else offset + lexeme.length := rfl

/-- Where the search goes on after modes were closed. -/
theorem index_leave (s : Scan) (depth : Nat) (lexeme : String) (offset : Nat) :
    (s.leave g depth lexeme offset).index =
      if (s.top g).flags.returnEnd then offset else offset + lexeme.length := rfl

/-! ### Characters that are passed over -/

variable (ignoreIllegals : Bool) (text : Text)

/-- Whether the next step moves past a character without reading it: the terminator matches the
empty text before the end, nothing begins or ends there, and nothing illegal is reported. -/
def passesOver (s : Scan) : Bool :=
  match (s.top g).terminators with
  | none => false
  | some terminators =>
    match terminators.find? text s.index with
    | .ok (some span) =>
      span.start == span.stop && decide (span.start < text.size) &&
        (beginning? g "" (s.top g).contains matches .ok none) &&
        (ending? g "" s.stack.frames matches .ok none) &&
        (s.checkLegal g ignoreIllegals "" matches .ok ())
    | _ => false

variable {g ignoreIllegals text}

/-- The positions after a lexeme. -/
theorem start_add_length {low : Nat} (span : Span low text.size) :
    span.start + (text.slice span.start span.stop).length = span.stop := by
  have hstop := span.stop_le_size
  have hstart := span.start_le_stop
  rw [text.length_slice]
  omega

/-- A lexeme that is read extends the text read up to its end, and one that is to be read again
leaves it at its start. -/
theorem slice_zero_append {low : Nat} (span : Span low text.size) (returned : Bool) :
    (text.slice 0 span.start ++ if returned then "" else text.slice span.start span.stop) =
      text.slice 0 (if returned then span.start
        else span.start + (text.slice span.start span.stop).length) := by
  cases returned with
  | true => simp
  | false =>
      rw [if_neg Bool.false_ne_true, if_neg Bool.false_ne_true, start_add_length,
        text.slice_append_slice (Nat.zero_le _) span.start_le_stop]

/-- **One step.** If the text read is the text up to where the search starts, it still is after a
step that passes over no character. -/
theorem textRead_next (hg : g.Lossless) {s next : Scan}
    (hnext : Next g ignoreIllegals text s next)
    (hkeeps : s.passesOver g ignoreIllegals text = false)
    (hread : s.textRead = text.slice 0 s.index) :
    next.textRead = text.slice 0 next.index := by
  obtain ⟨terminators, span, hterminators, hfind, hdispatched⟩ := step?_eq_some hnext
  have hbefore : (s.gather (text.slice s.index span.start)).textRead = text.slice 0 span.start := by
    rw [textRead_gather, hread, text.slice_append_slice (Nat.zero_le _) span.low_le_start]
  cases hdispatched with
  | entered hmoving hbegin =>
      rw [textRead_enter g (hg.mode _), index_enter, ← slice_zero_append]
      exact congrArg (· ++ _) hbefore
  | left hmoving hbegin hend =>
      rw [textRead_leave g _ (hg.mode _), index_leave, ← slice_zero_append]
      exact congrArg (· ++ _) hbefore
  | steppedOver hstalled =>
      rw [textRead_stepOver, textRead_settled, hbefore]
      exact text.slice_append_slice (Nat.zero_le _) (Nat.le_succ _)
  | passed hbegin hend hlegal =>
      rw [textRead_moveTo, textRead_gather, textRead_settled, hbefore]
      have hlength := start_add_length span
      by_cases hempty : span.start = span.stop
      · -- An empty lexeme is harmless only at the end of the text.
        have hlexeme : text.slice span.start span.stop = "" :=
          text.slice_eq_empty (by omega)
        rw [hlexeme] at hbegin hend hlegal ⊢
        change beginning? g "" (s.top g).contains = .ok none at hbegin
        change ending? g "" s.stack.frames = .ok none at hend
        change s.checkLegal g ignoreIllegals "" = .ok () at hlegal
        have hsize : text.size ≤ span.stop := by
          simpa [passesOver, hterminators, hfind, hempty, hbegin, hend, hlegal] using hkeeps
        rw [String.append_empty, text.slice_of_size_le 0 (by omega),
          text.slice_of_size_le 0 (show text.size ≤ span.start + max 1 "".length by omega)]
      · have hstart := span.start_le_stop
        rw [show span.start + max 1 (text.slice span.start span.stop).length = span.stop by omega]
        exact text.slice_append_slice (Nat.zero_le _) hstart

/-- **A run.** Along a run in which no state passes over a character, the text read is the text up
to where the next search starts. -/
theorem textRead_of_reaches (hg : g.Lossless) {stack : Stack} {s : Scan}
    (hkeeps : ∀ s, Reaches g ignoreIllegals text (initial g stack) s →
      s.passesOver g ignoreIllegals text = false)
    (hreaches : Reaches g ignoreIllegals text (initial g stack) s) :
    s.textRead = text.slice 0 s.index := by
  refine hreaches.keeps ?_ fun s next hs hnext hread =>
    textRead_next hg hnext (hkeeps s hs) hread
  have hevents : eventText (initial g stack).events.reverse = "" := by
    refine eventText_eq_empty fun event hmem => ?_
    simp only [initial, List.reverse_reverse, List.mem_map] at hmem
    obtain ⟨className, -, rfl⟩ := hmem
    rfl
  rw [textRead, hevents, String.empty_append]
  exact (text.slice_eq_empty (Nat.min_le_left 0 text.size)).symm

/-- The rest of the text completes what was read, and leaves nothing in the buffer. -/
theorem eventText_finish {s : Scan} (hread : s.textRead = text.slice 0 s.index) :
    eventText (s.finish text).events.reverse = text.slice 0 text.size := by
  have hfinish : (s.finish text).textRead =
      text.slice 0 s.index ++ text.slice s.index text.size := by
    rw [finish, textRead_flush, textRead_gather, hread]
  rw [textRead, finish, buffer_flush, String.append_empty, ← finish] at hfinish
  rw [hfinish]
  by_cases hindex : s.index ≤ text.size
  · exact text.slice_append_slice (Nat.zero_le _) hindex
  · rw [text.slice_eq_empty (show min text.size text.size ≤ s.index by omega),
      String.append_empty, text.slice_of_size_le 0 (by omega)]

end Scan

/-- The scan passes over no character: an empty lexeme before the end of the text always begins or
ends a mode, or is illegal. -/
def ScanCall.KeepsCharacters (call : ScanCall) : Prop :=
  ∀ s, Scan.Reaches call.grammar call.ignoreIllegals (Text.ofString call.content)
      (Scan.initial call.grammar call.stack) s →
    s.passesOver call.grammar call.ignoreIllegals (Text.ofString call.content) = false

/-- The chunks of a scan that comes to its end are the text. -/
theorem eventText_scan {g : CompiledGrammar} {limit : StepLimit} {ignoreIllegals : Bool}
    {stack last : Stack} {content : String} (hg : g.Lossless)
    (hkeeps : ScanCall.KeepsCharacters ⟨g, ignoreIllegals, stack, content⟩)
    (hscan : (scan g limit ignoreIllegals stack content).outcome = .ok last) :
    eventText (scan g limit ignoreIllegals stack content).events = content := by
  obtain ⟨s, hreaches, -, hevents⟩ := scan_eq_ok hscan
  have hends : eventText ((Scan.openClasses g s.stack).reverse.map Event.ends) = "" := by
    refine eventText_eq_empty fun event hmem => ?_
    obtain ⟨className, -, rfl⟩ := List.mem_map.1 hmem
    rfl
  rw [hevents, eventText_append, hends, String.append_empty,
    Scan.eventText_finish (Scan.textRead_of_reaches hg hkeeps hreaches), Text.slice_ofString]

/-! ### From events to tokens -/

namespace Emission

variable {g : CompiledGrammar} {embedding : Embedding}

theorem plainText_addEmbedded (e : Emission) (container : CompiledMode) (result : Highlighted) :
    plainText (e.addEmbedded container result).stream.toList =
      plainText e.stream.toList ++ plainText result.tokens := by
  rw [stream_addEmbedded]
  cases result.language with
  | some name => simp
  | none => exact Stream.plainText_appendJoined _ _

/-- Adding an event adds its text, if the answer to its request has the text of the request. -/
theorem plainText_add {e next : Emission} {event : Event}
    (hanswers : ∀ request ∈ e.request? g event, ∀ result,
      embedding.Answers request result → plainText result.tokens = request.content)
    (hadd : (e.add g embedding event).value = .ok next) :
    plainText next.stream.toList = plainText e.stream.toList ++ event.content := by
  cases add_eq_ok hadd with
  | begins className => simp [Event.content]
  | ends className => simp [Event.content]
  | score weight => simp [Event.content]
  | classified hsub hclassify =>
      obtain ⟨leaves, rfl, -, hleaves⟩ := classify_ok hclassify
      rw [stream_score, Stream.plainText_appendJoined, hleaves]
      rfl
  | unregistered hsub hnone => exact Stream.plainText_pushText _ _
  | @fixed index content name result hsub hresult =>
      have htext : plainText result.tokens = content :=
        hanswers (.fixed name content (e.threads.lookup name)) (by simp [request?, hsub]) result
          hresult
      rw [plainText_addEmbedded, stream_keepThread, htext]
      rfl
  | @auto index content names result hsub hresult =>
      have htext : plainText result.tokens = content :=
        hanswers (.auto names content) (by simp [request?, hsub]) result hresult
      rw [plainText_addEmbedded, htext]
      rfl

theorem plainText_addAll {e last : Emission} {events : List Event}
    (hanswers : ∀ request ∈ requests g embedding e events, ∀ result,
      embedding.Answers request result → plainText result.tokens = request.content)
    (hlast : (addAll g embedding e events).value = .ok last) :
    plainText last.stream.toList = plainText e.stream.toList ++ eventText events := by
  induction events generalizing e with
  | nil =>
      cases hlast
      rw [eventText_nil, String.append_empty]
  | cons event rest ih =>
      obtain ⟨next, hnext, hrest⟩ := addAll_cons_eq_ok hlast
      simp only [requests, hnext] at hanswers
      rw [ih (fun request hmem => hanswers request (List.mem_append_right _ hmem)) hrest,
        plainText_add (fun request hmem => hanswers request
          (List.mem_append_left _ (Option.mem_toList.2 hmem))) hnext,
        eventText_cons, String.append_assoc]

end Emission

theorem plainText_verbatim (content : String) :
    plainText (Highlighted.verbatim content).tokens = content := by
  rw [Highlighted.verbatim, Stream.plainText_pushText]
  simp

/-- Having the text of the source is passed on from embedded results. -/
theorem hereditary_plainText :
    Hereditary CompiledGrammar.Lossless ScanCall.KeepsCharacters
      (fun content result => plainText result.tokens = content) where
  verbatim := plainText_verbatim
  byGrammar := by
    intro g embedding name ignoreIllegals stack content result hg hkeeps hanswers hresult
    obtain ⟨e, last, he, hlast, rfl⟩ := highlightByGrammar_eq_ok hresult
    have htext := Emission.plainText_addAll hanswers he
    rw [eventText_scan hg hkeeps hlast] at htext
    exact htext.trans String.empty_append

/-- **The source text is conserved.** When no mode of the languages involved is both returned and
kept and no scan of a call passes over a character, the tokens of its result carry the text,
whatever a call is allowed of steps and of depth: by a registered language, by any language, and by
the best of several. -/
theorem plainText_highlight (h : Highlighter)
    (hregistry : h.registry.AllCompiled CompiledGrammar.Lossless) :
    (∀ (name content : String) (options : Options) (result : Highlighted),
      (h.highlightWith name content options).value = .ok result →
      (∀ call ∈ h.scansWith name content options, call.KeepsCharacters) →
      plainText result.tokens = content) ∧
    (∀ (language : Language) (content : String) (options : Options) (result : Highlighted),
      (∀ g, language.compile = .ok g → g.Lossless) →
      (h.highlightLanguage language content options).value = .ok result →
      (∀ call ∈ h.scansLanguage language content options, call.KeepsCharacters) →
      plainText result.tokens = content) ∧
    (∀ (content : String) (names : List String) (detection : Detection),
      (h.highlightAmong content names).value = .ok detection →
      (∀ call ∈ h.scansAmong content names, call.KeepsCharacters) →
      plainText detection.best.tokens = content ∧
        ∀ second ∈ detection.second, plainText second.tokens = content) := by
  refine ⟨?_, ?_, ?_⟩
  · intro name content options result hresult hkeeps
    exact hereditary_plainText.highlightWith hregistry hkeeps hresult
  · intro language content options result hlanguage hresult hkeeps
    exact hereditary_plainText.highlightLanguage hregistry hlanguage hkeeps hresult
  · intro content names detection hresult hkeeps
    exact hereditary_plainText.highlightAmong hregistry hkeeps hresult

/-! ### A sample -/

/-- Whether the states that a run of so many steps goes through pass over no character, and the run
ends. -/
def Scan.keepsWithin (g : CompiledGrammar) (ignoreIllegals : Bool) (text : Text) :
    Nat → Scan → Bool
  | 0, _ => false
  | fuel + 1, s =>
    !s.passesOver g ignoreIllegals text &&
      match s.step? g ignoreIllegals text with
      | .ok (some next) => keepsWithin g ignoreIllegals text fuel next
      | _ => true

theorem Scan.passesOver_of_keepsWithin {g : CompiledGrammar} {ignoreIllegals : Bool} {text : Text}
    {fuel : Nat} {s last : Scan} (h : s.keepsWithin g ignoreIllegals text fuel = true)
    (hreaches : Reaches g ignoreIllegals text s last) :
    last.passesOver g ignoreIllegals text = false := by
  induction fuel generalizing s with
  | zero => cases h
  | succ fuel ih =>
      rw [keepsWithin, Bool.and_eq_true, Bool.not_eq_true'] at h
      rcases Relation.ReflTransGen.cases_head hreaches with rfl | ⟨next, hnext, hrest⟩
      · exact h.1
      · have hwithin := h.2
        rw [hnext] at hwithin
        exact ih hwithin hrest

/-- Run a scan and see whether it passes over a character. -/
def ScanCall.keeps (call : ScanCall) : Bool :=
  Scan.keepsWithin call.grammar call.ignoreIllegals (Text.ofString call.content)
    (Scan.fuelFor call.grammar (Text.ofString call.content) call.stack)
    (Scan.initial call.grammar call.stack)

theorem ScanCall.keepsCharacters_of_all {calls : List ScanCall}
    (h : calls.all ScanCall.keeps = true) : ∀ call ∈ calls, call.KeepsCharacters := by
  intro call hcall s hreaches
  exact Scan.passesOver_of_keepsWithin (List.all_eq_true.1 h call hcall) hreaches

theorem plainText_highlight_sample :
    (∃ result, (sampleHighlighter.highlightWith "host" "a<b12>c" {}).value = .ok result ∧
      plainText result.tokens = "a<b12>c") ∧
    (∃ result, (sampleHighlighter.highlightLanguage sampleHost "<1" {}).value = .ok result ∧
      plainText result.tokens = "<1") ∧
    (∃ detection, (sampleHighlighter.highlightAmong "12<2>" []).value = .ok detection ∧
      plainText detection.best.tokens = "12<2>") := by
  obtain ⟨hwith, hlanguage, hamong⟩ := plainText_highlight sampleHighlighter (by decide +kernel)
  refine ⟨?_, ?_, ?_⟩
  · obtain ⟨result, hresult⟩ := exists_of_isOk (show (sampleHighlighter.highlightWith "host"
      "a<b12>c" {}).value.isOk = true by decide +kernel)
    exact ⟨result, hresult, hwith "host" "a<b12>c" {} result hresult
      (ScanCall.keepsCharacters_of_all (by decide +kernel))⟩
  · obtain ⟨result, hresult⟩ := exists_of_isOk (show (sampleHighlighter.highlightLanguage
      sampleHost "<1" {}).value.isOk = true by decide +kernel)
    exact ⟨result, hresult, hlanguage sampleHost "<1" {} result (by decide +kernel) hresult
      (ScanCall.keepsCharacters_of_all (by decide +kernel))⟩
  · obtain ⟨detection, hdetection⟩ := exists_of_isOk (show (sampleHighlighter.highlightAmong
      "12<2>" []).value.isOk = true by decide +kernel)
    exact ⟨detection, hdetection, (hamong "12<2>" [] detection hdetection
      (ScanCall.keepsCharacters_of_all (by decide +kernel))).1⟩

end LexicalModes
