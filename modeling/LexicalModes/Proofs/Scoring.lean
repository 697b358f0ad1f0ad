import Mathlib.Algebra.Ring.Nat
import LexicalModes.Proofs.Containment
import LexicalModes.Proofs.Frames

/-!
Relevance is a sum that stops at the largest score. What counts is kept in a `Tally`: the keywords
hit in the chunks of modes that embed nothing, the modes that steps closed, and the results of
embedded languages. Scores are added one by one, some of them after they have themselves been
stopped at the largest score, but stopping early and stopping late come to the same
(`Relevance.add_clamp`). So the relevance of a result is the sum of its tally, stopped once.
-/

namespace LexicalModes

open Pattern

/-! ### Sums that stop -/

namespace Relevance

/-- The sum, or the largest score if the sum exceeds it. -/
def clamp (sum : Nat) : Relevance := min sum largest

theorem add_clamp (a b : Nat) : add (clamp a) b = clamp (a + b) := by
  change min (min a largest + b) largest = min (a + b) largest
  omega

theorem add_clamp_clamp (a b : Nat) : add (clamp a) (clamp b) = clamp (a + b) := by
  change min (min a largest + min b largest) largest = min (a + b) largest
  omega

end Relevance

/-! ### What counts -/

/-- The keyword that a lexeme of a text hits, if it is in the table. -/
def keywordAt? (table : KeywordTable) (caseInsensitive : Bool) (text : Text)
    (lexeme : Nat × Nat) : Option Keyword :=
  let word := text.slice lexeme.1 lexeme.2
  table.lookup (if caseInsensitive then Unicode.lowercase word else word)

/-- The keywords that the lexemes of a text hit, in order. -/
def keywordHits (mode : CompiledMode) (caseInsensitive : Bool) (content : String) :
    List Keyword :=
  match mode.keywords with
  | none => []
  | some table =>
    (lexemesIn mode.lexemes (Text.ofString content)).1.filterMap
      (keywordAt? table caseInsensitive (Text.ofString content))

/-- What counts for the relevance of a text: the keywords that were hit, the modes that were closed,
and the results of embedded languages, each with the mode that embeds the language. -/
structure Tally where
  keywords : List Keyword
  closed : List CompiledMode
  embedded : List (CompiledMode × Highlighted)

/-- What a mode counts when it is closed: nothing if it is skipped or embeds a language. -/
def CompiledMode.closingScore (mode : CompiledMode) : Nat :=
  if mode.flags.skip || mode.subLanguage.isSome then 0 else mode.relevance

/-- What an embedded result counts: nothing if the mode around it does not. -/
def embeddedScore (container : CompiledMode) (result : Highlighted) : Nat :=
  if container.relevance = 0 then 0 else result.relevance

def keywordSum (keywords : List Keyword) : Nat := (keywords.map Keyword.weight).sum

def closedSum (modes : List CompiledMode) : Nat := (modes.map CompiledMode.closingScore).sum

def embeddedSum (results : List (CompiledMode × Highlighted)) : Nat :=
  (results.map fun pair => embeddedScore pair.1 pair.2).sum

/-- The sum of all that counts. -/
def Tally.sum (t : Tally) : Nat :=
  keywordSum t.keywords + closedSum t.closed + embeddedSum t.embedded

namespace Emission

variable (g : CompiledGrammar) (embedding : Embedding)

/-- The keywords that a chunk hits if its mode embeds nothing. -/
def hits : Event → List Keyword
  | .chunk index content =>
    if (g.mode index).subLanguage.isNone then
      keywordHits (g.mode index) g.caseInsensitive content
    else []
  | _ => []

/-- The result of the language that a chunk is handed to, with the mode of the chunk. There is none
if the language is not registered. -/
def answer? (e : Emission) : Event → Option (CompiledMode × Highlighted)
  | .chunk index content =>
    match (g.mode index).subLanguage with
    | none => none
    | some (.fixed name) =>
      match (embedding.fixed name content (e.threads.lookup name)).value with
      | .ok (some result) => some (g.mode index, result)
      | _ => none
    | some (.auto names) =>
      match (embedding.auto names content).value with
      | .ok result => some (g.mode index, result)
      | .error _ => none
  | _ => none

/-- The results of the languages that chunks are handed to, one after another. -/
def answers : Emission → List Event → List (CompiledMode × Highlighted)
  | _, [] => []
  | e, event :: rest =>
    (e.answer? g embedding event).toList ++
      match (e.add g embedding event).value with
      | .ok next => answers next rest
      | .error _ => []

end Emission

/-- The frames that a step closes. -/
def Scan.Step.closed (step : Scan.Step) : List Frame :=
  match step.treatment with
  | .closes depth => step.state.stack.frames.take (step.state.stack.depth + 1 - depth)
  | _ => []

/-- What counts in a scan: the keywords and the embedded results of its chunks, and the modes that
its steps closed. -/
def tallyOf (g : CompiledGrammar) (embedding : Embedding) (steps : List Scan.Step)
    (events : List Event) : Tally where
  keywords := events.flatMap (Emission.hits g)
  closed := (steps.flatMap Scan.Step.closed).map fun frame => g.mode frame.mode
  embedded := Emission.answers g embedding {} events

@[simp] theorem keywordSum_append (first second : List Keyword) :
    keywordSum (first ++ second) = keywordSum first + keywordSum second := by
  rw [keywordSum, List.map_append, List.sum_append]
  rfl

@[simp] theorem closedSum_append (first second : List CompiledMode) :
    closedSum (first ++ second) = closedSum first + closedSum second := by
  rw [closedSum, List.map_append, List.sum_append]
  rfl

@[simp] theorem embeddedSum_append (first second : List (CompiledMode × Highlighted)) :
    embeddedSum (first ++ second) = embeddedSum first + embeddedSum second := by
  rw [embeddedSum, List.map_append, List.sum_append]
  rfl

/-! ### Keywords -/

section

variable (table : KeywordTable) (caseInsensitive : Bool) (text : Text)

theorem Classified.relevance_addLexeme {c : Classified} {n : Nat}
    (hc : c.relevance = Relevance.clamp n) (last : Nat) (lexeme : Nat × Nat) :
    (c.addLexeme table caseInsensitive text last lexeme).relevance =
      Relevance.clamp (n + keywordSum (keywordAt? table caseInsensitive text lexeme).toList) := by
  simp only [addLexeme, keywordAt?]
  cases table.lookup (if caseInsensitive = true then Unicode.lowercase _ else _) with
  | none => exact hc
  | some k =>
      change Relevance.add c.relevance k.weight = _
      rw [hc, Relevance.add_clamp]
      rfl

theorem Classified.relevance_addLexemes {c : Classified} {n : Nat}
    (hc : c.relevance = Relevance.clamp n) (last : Nat) (lexemes : List (Nat × Nat)) :
    (addLexemes table caseInsensitive text c last lexemes).1.relevance =
      Relevance.clamp
        (n + keywordSum (lexemes.filterMap (keywordAt? table caseInsensitive text))) := by
  induction lexemes generalizing c n last with
  | nil => exact hc
  | cons lexeme rest ih =>
      have hfirst := relevance_addLexeme table caseInsensitive text hc last lexeme
      rw [addLexemes, ih hfirst, Nat.add_assoc, ← keywordSum_append, List.filterMap_cons]
      cases keywordAt? table caseInsensitive text lexeme with
      | none => rfl
      | some k => rfl

end

/-- The relevance of a classified text is the sum of the weights of the keywords it hits. -/
theorem relevance_of_classify {mode : CompiledMode} {caseInsensitive : Bool} {content : String}
    {stream next : Stream} {relevance : Relevance}
    (h : classify mode content caseInsensitive stream = (next, .ok relevance)) :
    relevance = Relevance.clamp (keywordSum (keywordHits mode caseInsensitive content)) := by
  rw [classify] at h
  rw [keywordHits]
  cases hkeywords : mode.keywords with
  | none =>
      rw [hkeywords] at h
      cases h
      rfl
  | some table =>
      simp only [hkeywords] at h
      rcases hlexemes : lexemesIn mode.lexemes (Text.ofString content) with ⟨lexemes, fault⟩
      simp only [hlexemes] at h ⊢
      cases fault with
      | some e => cases (Prod.mk.inj h).2
      | none =>
          have hsum := Classified.relevance_addLexemes table caseInsensitive (Text.ofString content)
            (c := ⟨stream, 0⟩) (n := 0) rfl 0 lexemes
          rwa [Except.ok.inj (Prod.mk.inj h).2, Nat.zero_add] at hsum

/-! ### Events -/

/-- What an event counts by itself. -/
def Event.weight : Event → Nat
  | .score weight => weight
  | .begins _ | .ends _ | .chunk _ _ => 0

def eventSum (events : List Event) : Nat := (events.map Event.weight).sum

@[simp] theorem eventSum_cons (event : Event) (events : List Event) :
    eventSum (event :: events) = event.weight + eventSum events := by
  rw [eventSum, List.map_cons, List.sum_cons]
  rfl

@[simp] theorem eventSum_append (first second : List Event) :
    eventSum (first ++ second) = eventSum first + eventSum second := by
  rw [eventSum, List.map_append, List.sum_append]
  rfl

@[simp] theorem eventSum_reverse (events : List Event) :
    eventSum events.reverse = eventSum events := by
  rw [eventSum, List.map_reverse, List.sum_reverse]
  rfl

/-- Events that only name regions count nothing. -/
theorem eventSum_map {kind : String → Event} (hkind : ∀ name, (kind name).weight = 0)
    (names : List String) : eventSum (names.map kind) = 0 := by
  induction names with
  | nil => rfl
  | cons name rest ih => rw [List.map_cons, eventSum_cons, hkind, ih]

namespace Emission

variable {g : CompiledGrammar} {embedding : Embedding}

@[simp] theorem relevance_keepThread (e : Emission) (name : String)
    (continuation : Option Continuation) :
    (e.keepThread name continuation).relevance = e.relevance := by
  cases continuation with
  | none => rfl
  | some c => rfl

theorem relevance_addEmbedded {e : Emission} {n : Nat} (he : e.relevance = Relevance.clamp n)
    (container : CompiledMode) (result : Highlighted) :
    (e.addEmbedded container result).relevance =
      Relevance.clamp (n + embeddedScore container result) := by
  have hscore : (if container.relevance > 0 then e.score result.relevance else e).relevance =
      Relevance.clamp (n + embeddedScore container result) := by
    rw [embeddedScore]
    by_cases hzero : container.relevance = 0
    · rw [if_neg (Nat.not_lt.2 (Nat.le_of_eq hzero)), if_pos hzero]
      exact he
    · rw [if_pos (Nat.pos_of_ne_zero hzero), if_neg hzero, score, he, Relevance.add_clamp]
  rw [addEmbedded]
  cases result.language with
  | none => exact hscore
  | some name => exact hscore

/-- **One event** adds the keywords that it hits, what it counts by itself, and the result of the
language it is handed to. -/
theorem relevance_add {e next : Emission} {event : Event} {n : Nat}
    (he : e.relevance = Relevance.clamp n)
    (hadd : (e.add g embedding event).value = .ok next) :
    next.relevance = Relevance.clamp (n + (keywordSum (hits g event) + event.weight +
      embeddedSum (e.answer? g embedding event).toList)) := by
  cases add_eq_ok hadd with
  | begins className => exact he
  | ends className => exact he
  | score weight =>
      rw [score, he, Relevance.add_clamp]
      simp [hits, answer?, Event.weight, keywordSum, embeddedSum]
  | classified hsub hclassify =>
      rw [score, he, relevance_of_classify hclassify, Relevance.add_clamp_clamp]
      simp [hits, answer?, Event.weight, hsub, embeddedSum]
  | unregistered hsub hnone =>
      simpa [hits, answer?, Event.weight, hsub, hnone, keywordSum, embeddedSum] using he
  | @fixed index content name result hsub hresult =>
      have hkept : (e.keepThread name result.continuation).relevance = Relevance.clamp n := by
        rw [relevance_keepThread, he]
      rw [relevance_addEmbedded hkept]
      simp [hits, answer?, Event.weight, hsub, hresult, keywordSum, embeddedSum]
  | auto hsub hresult =>
      rw [relevance_addEmbedded he]
      simp [hits, answer?, Event.weight, hsub, hresult, keywordSum, embeddedSum]

/-- **A run of events** adds what each of them adds. -/
theorem relevance_addAll {e last : Emission} {events : List Event} {n : Nat}
    (he : e.relevance = Relevance.clamp n)
    (hlast : (addAll g embedding e events).value = .ok last) :
    last.relevance = Relevance.clamp (n + (keywordSum (events.flatMap (hits g)) + eventSum events +
      embeddedSum (answers g embedding e events))) := by
  -- `n` is what the sum would be had it never been stopped; each event adds to it.
  induction events generalizing e n with
  | nil =>
      cases hlast
      exact he
  | cons event rest ih =>
      obtain ⟨next, hnext, hrest⟩ := addAll_cons_eq_ok hlast
      rw [ih (relevance_add he hnext) hrest]
      simp only [List.flatMap_cons, keywordSum_append, eventSum_cons, answers, hnext,
        embeddedSum_append]
      congr 1
      omega

end Emission

/-! ### Modes that are closed -/

namespace Scan

variable {g : CompiledGrammar}

@[simp] theorem eventSum_flush (s : Scan) : eventSum s.flush.events = eventSum s.events := by
  rw [flush]
  split
  · rfl
  · simp [Event.weight]

@[simp] theorem eventSum_start (s : Scan) (mode : ModeIndex) (closer : Option Closer) :
    eventSum (s.start g mode closer).events = eventSum s.events := by
  rw [start]
  cases (g.mode mode).className with
  | none => rfl
  | some className => simp [Event.weight]

theorem eventSum_closingEvents (mode : CompiledMode) :
    eventSum (closingEvents mode) = mode.closingScore := by
  have hname : eventSum (mode.className.map Event.ends).toList = 0 := by
    cases mode.className with
    | none => rfl
    | some className => rfl
  rw [closingEvents, eventSum_append, hname, CompiledMode.closingScore]
  cases mode.flags.skip <;> cases mode.subLanguage <;> simp [eventSum, Event.weight]

/-- Every frame that is closed counts once. -/
theorem eventSum_closeModes (count : Nat) (s : Scan) :
    eventSum (closeModes g count s).events =
      eventSum s.events + closedSum ((s.stack.frames.take count).map fun f => g.mode f.mode) := by
  induction count generalizing s with
  | zero => rfl
  | succ count ih =>
      rw [closeModes]
      split
      case h_1 hframes =>
        rw [hframes]
        rfl
      case h_2 frame below hframes =>
        rw [ih]
        simp only [Stack.pop, hframes, List.tail_cons, List.take_succ_cons, List.map_cons,
          eventSum_append, eventSum_reverse, eventSum_closingEvents]
        rw [closedSum, closedSum, List.map_cons, List.sum_cons]
        omega

@[simp] theorem eventSum_takeBegin (s : Scan) (flags : ModeFlags) (lexeme : String) :
    eventSum (s.takeBegin flags lexeme).events = eventSum s.events := by
  rcases takeBegin_cases s flags lexeme with ⟨-, h⟩ | ⟨-, -, h⟩ | ⟨-, -, -, h⟩ | ⟨-, -, -, h⟩
  · rw [h]
    rfl
  · rw [h, eventSum_flush]
    rfl
  · rw [h, eventSum_flush]
  · rw [h]
    exact eventSum_flush s

@[simp] theorem eventSum_takeEnd (s : Scan) (flags : ModeFlags) (lexeme : String) :
    eventSum (s.takeEnd flags lexeme).events = eventSum s.events := by
  rcases takeEnd_cases s flags lexeme with ⟨-, h⟩ | ⟨-, -, h⟩ | ⟨-, -, -, h⟩ | ⟨-, -, -, h⟩
  · rw [h]
    rfl
  · rw [h]
    exact eventSum_flush s
  · rw [h, eventSum_flush]
  · rw [h, eventSum_flush]
    rfl

theorem eventSum_closeTo (s : Scan) (depth : Nat) :
    eventSum (s.closeTo g depth).events = eventSum s.events +
      closedSum ((s.stack.frames.take (s.stack.depth + 1 - depth)).map fun f => g.mode f.mode) := by
  rw [← eventSum_closeModes, closeTo]
  split
  · split
    · exact eventSum_start _ _ _
    · rfl
  · rfl

/-- **One step** counts the modes that it closes. -/
theorem eventSum_result (step : Step) (text : Text) :
    eventSum (step.result g text).events =
      eventSum step.state.events + closedSum (step.closed.map fun f => g.mode f.mode) := by
  rw [Step.result, Step.closed]
  cases step.treatment with
  | opens child closer =>
      simp only [treated, enter_eq, eventSum_start, eventSum_takeBegin]
      rfl
  | closes depth =>
      simp only [treated, leave_eq, eventSum_closeTo, eventSum_takeEnd, stack_takeEnd]
      rfl
  | stepsOver => rfl
  | passes => rfl

variable {ignoreIllegals : Bool} {text : Text}

/-- **A run** counts the modes that its steps close. -/
theorem Run.eventSum {first last : Scan} {steps : List Step}
    (hrun : Run g ignoreIllegals text first steps last) :
    eventSum last.events = eventSum first.events +
      closedSum ((steps.flatMap Step.closed).map fun f => g.mode f.mode) := by
  induction hrun with
  | nil => rfl
  | snoc _ _ ih =>
      rw [eventSum_result, ih, List.flatMap_append, List.map_append, closedSum_append,
        List.flatMap_singleton]
      omega

end Scan

/-! ### The relevance of a result -/

/-- The relevance of the result is the sum, stopped at the largest score, of what counts in a run
of the scanner over the whole text. -/
def Highlighted.SumsUp (result : Highlighted) (g : CompiledGrammar) (embedding : Embedding)
    (ignoreIllegals : Bool) (stack : Stack) (content : String) : Prop :=
  ∃ steps last,
    Scan.Run g ignoreIllegals (Text.ofString content) (Scan.initial g stack) steps last ∧
    last.step? g ignoreIllegals (Text.ofString content) = .ok none ∧
    result.relevance = min (2 ^ 32 - 1)
      (tallyOf g embedding steps
        (scan g embedding.stepLimit ignoreIllegals stack content).events).sum

theorem sumsUp_of_highlightByGrammar {g : CompiledGrammar} {embedding : Embedding} {name : String}
    {ignoreIllegals : Bool} {stack : Stack} {content : String} {result : Highlighted}
    (h : (highlightByGrammar g embedding name ignoreIllegals stack content).value = .ok result) :
    result.SumsUp g embedding ignoreIllegals stack content := by
  obtain ⟨e, last, he, hlast, rfl⟩ := highlightByGrammar_eq_ok h
  obtain ⟨steps, s, hrun, ⟨hdone, hscan⟩ | ⟨fault, -, hscan⟩⟩ :=
    exists_run_of_scan g embedding.stepLimit ignoreIllegals stack content
  · refine ⟨steps, s, hrun, hdone, ?_⟩
    have hinitial : eventSum (Scan.initial g stack).events = 0 := by
      rw [Scan.initial, eventSum_reverse]
      exact eventSum_map (fun _ => rfl) _
    -- The regions that are opened again at the front and ended at the end count nothing.
    have hevents : eventSum (scan g embedding.stepLimit ignoreIllegals stack content).events =
        closedSum ((steps.flatMap Scan.Step.closed).map fun f => g.mode f.mode) := by
      rw [hscan, eventSum_append, eventSum_map fun _ => rfl, eventSum_reverse, Scan.finish,
        Scan.eventSum_flush]
      change eventSum s.events + 0 = _
      rw [hrun.eventSum, hinitial, Nat.add_zero, Nat.zero_add]
    have hsum := Emission.relevance_addAll (n := 0) rfl he
    rw [hevents, Nat.zero_add] at hsum
    rw [hsum, Nat.min_comm]
    rfl
  · rw [hscan] at hlast
    cases hlast

theorem sumsUp_of_highlightCompiled {embedding : Embedding} {name content : String}
    {grammar : Except CompileError CompiledGrammar} {used : List String} {options : Options}
    {result : Highlighted}
    (h : (highlightCompiled embedding name grammar used content options).value = .ok result)
    (hlanguage : result.language.isSome = true) :
    ∃ g stack, grammar = .ok g ∧ options.startFor name = .ok stack ∧
      result.SumsUp g embedding options.ignoreIllegals stack content := by
  obtain ⟨g, stack, hg, hstack, hresult | ⟨-, rfl⟩⟩ := highlightCompiled_eq_ok h
  · exact ⟨g, stack, hg, hstack, sumsUp_of_highlightByGrammar hresult⟩
  · cases hlanguage

/-- **Relevance is what counts, summed and stopped once.** A result that is not the text left as it
is comes from a run of the scanner to its end, and its relevance is the smaller of the largest
score and the sum over the keywords that were hit, the modes that the steps closed, and the results
of embedded languages. -/
theorem relevance_eq_tally (h : Highlighter) :
    (∀ (g : CompiledGrammar) (embedding : Embedding) (name : String) (ignoreIllegals : Bool)
      (stack : Stack) (content : String) (result : Highlighted),
      (highlightByGrammar g embedding name ignoreIllegals stack content).value = .ok result →
      result.SumsUp g embedding ignoreIllegals stack content) ∧
    (∀ (name content : String) (options : Options) (result : Highlighted),
      (h.highlightWith name content options).value = .ok result → result.language.isSome = true →
      ∃ language g stack, h.registry.get? name = some language ∧ language.compile = .ok g ∧
        options.startFor language.name = .ok stack ∧
        result.SumsUp g (h.embedding h.embeddingLimit) options.ignoreIllegals stack content) ∧
    (∀ (language : Language) (content : String) (options : Options) (result : Highlighted),
      (h.highlightLanguage language content options).value = .ok result →
      result.language.isSome = true →
      ∃ g stack, language.compile = .ok g ∧ options.startFor language.name = .ok stack ∧
        result.SumsUp g (h.embedding h.embeddingLimit) options.ignoreIllegals stack content) ∧
    (∀ (content : String) (names : List String) (detection : Detection) (result : Highlighted),
      (h.highlightAmong content names).value = .ok detection →
      (result = detection.best ∨ result ∈ detection.second) → result.language.isSome = true →
      ∃ entry ∈ h.entriesAmong names, ∃ g, entry.2.language.compile = .ok g ∧
        result.SumsUp g (h.embedding h.embeddingLimit) false .empty content) := by
  refine ⟨?_, ?_, ?_, ?_⟩
  · intro g embedding name ignoreIllegals stack content result hresult
    exact sumsUp_of_highlightByGrammar hresult
  · intro name content options result hresult hlanguage
    obtain ⟨entry, hfound, hresult⟩ := Highlighter.highlightWith_eq_ok hresult
    obtain ⟨g, stack, hg, hstack, hsum⟩ := sumsUp_of_highlightCompiled hresult hlanguage
    rw [entry.2.grammar_eq] at hg
    exact ⟨entry.2.language, g, stack, hfound, hg, hstack, hsum⟩
  · intro language content options result hresult hlanguage
    exact sumsUp_of_highlightCompiled hresult hlanguage
  · intro content names detection result hdetection hresult hlanguage
    rcases Highlighter.detection_cases hdetection with rfl | hgiven
    · rcases hresult with rfl | hresult
      · cases hlanguage
      · cases hresult
    · obtain ⟨entry, hentry, -, hresult⟩ := hgiven result hresult
      obtain ⟨g, stack, hg, hstack, hsum⟩ := sumsUp_of_highlightCompiled hresult hlanguage
      rw [entry.2.grammar_eq] at hg
      cases hstack
      exact ⟨entry, hentry, g, hg, hsum⟩

/-- A language with a keyword that scores almost all there is, quoted text of another language, and
remarks. -/
def sampleScored : Language where
  name := "scored"
  grammar := ⟨#[{ contains := [.mode 1, .mode 2], lexemes := some "z"
                  keywords := some (.plain "z|4294967290") },
    { className := some "quoted", beginPattern := some "<", endPattern := some ">"
      lexemes := some "z", subLanguage := some (.fixed "inner") },
    { beginPattern := some "--", endPattern := some "e", relevance := some 7
      lexemes := some "z" }], by decide⟩

/-- The keyword, the number in the quoted text and the remark together score more than there is. -/
theorem relevance_eq_tally_sample :
    (∃ result, (sampleHighlighter.highlightWith "host" "<12>" {}).value = .ok result ∧
      result.language.isSome = true ∧
      ∃ language g stack, sampleHighlighter.registry.get? "host" = some language ∧
        language.compile = .ok g ∧
        result.SumsUp g (sampleHighlighter.embedding sampleHighlighter.embeddingLimit) false stack
          "<12>") ∧
    (∃ result, (sampleHighlighter.highlightLanguage sampleScored "z<12>--ae" {}).value =
        .ok result ∧
      result.language.isSome = true ∧ result.relevance = 2 ^ 32 - 1 ∧
      ∃ g, sampleScored.compile = .ok g ∧
        result.SumsUp g (sampleHighlighter.embedding sampleHighlighter.embeddingLimit) false .empty
          "z<12>--ae") ∧
    (∃ detection, (sampleHighlighter.highlightAmong "12" []).value = .ok detection ∧
      detection.best.language.isSome = true ∧
      ∃ entry ∈ sampleHighlighter.entriesAmong [], ∃ g, entry.2.language.compile = .ok g ∧
        detection.best.SumsUp g (sampleHighlighter.embedding sampleHighlighter.embeddingLimit) false
          .empty "12") := by
  obtain ⟨-, hwith, hlanguage, hamong⟩ := relevance_eq_tally sampleHighlighter
  refine ⟨?_, ?_, ?_⟩
  · obtain ⟨result, hresult, hsome⟩ := exists_of_any (show (sampleHighlighter.highlightWith "host"
      "<12>" {}).value.toOption.any (·.language.isSome) = true by decide +kernel)
    obtain ⟨language, g, stack, hfound, hg, -, hsum⟩ := hwith _ _ _ _ hresult hsome
    exact ⟨result, hresult, hsome, language, g, stack, hfound, hg, hsum⟩
  · obtain ⟨result, hresult, htest⟩ := exists_of_any (show (sampleHighlighter.highlightLanguage
      sampleScored "z<12>--ae" {}).value.toOption.any
        (fun r => r.language.isSome && r.relevance == 2 ^ 32 - 1) = true by decide +kernel)
    obtain ⟨hsome, hlargest⟩ := Bool.and_eq_true_iff.1 htest
    obtain ⟨g, stack, hg, hstart, hsum⟩ := hlanguage _ _ _ _ hresult hsome
    cases hstart
    exact ⟨result, hresult, hsome, beq_iff_eq.1 hlargest, g, hg, hsum⟩
  · obtain ⟨detection, hdetection, hsome⟩ := exists_of_any (show (sampleHighlighter.highlightAmong
      "12" []).value.toOption.any (·.best.language.isSome) = true by decide +kernel)
    exact ⟨detection, hdetection, hsome, hamong _ _ _ _ hdetection (.inl rfl) hsome⟩

end LexicalModes
