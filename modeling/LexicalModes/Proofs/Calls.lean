import LexicalModes.Highlighter
import LexicalModes.Proofs.ScanSteps

/-!
The calls that highlighting makes of itself. While the events of a scan are turned into tokens,
chunks are handed to other languages as `Request`s; answering one takes further scans, which
`requestScans` lists together with those of their own requests. A property of results that
highlighting by a grammar passes on from the answers to its requests (`Hereditary`) then holds of
every result, however deep languages are embedded in each other.
-/

namespace LexicalModes

open Pattern

namespace Traced

variable {α β : Type}

@[simp] theorem value_pure (a : α) : (pure a : Traced α).value = .ok a := rfl

@[simp] theorem value_ofExcept (value : Except HighlightError α) :
    (Traced.ofExcept value).value = value := rfl

@[simp] theorem value_note (used : List String) : (Traced.note used).value = .ok () := rfl

theorem value_bind (x : Traced α) (f : α → Traced β) :
    (x >>= f).value = x.value >>= fun a => (f a).value := by
  change (Traced.bind x f).value = _
  rw [Traced.bind]
  cases x.value with
  | error e => rfl
  | ok a => rfl

theorem bind_value_eq_ok {x : Traced α} {f : α → Traced β} {b : β} :
    (x >>= f).value = .ok b ↔ ∃ a, x.value = .ok a ∧ (f a).value = .ok b := by
  rw [value_bind, bind_eq_ok]

/-- A result that may have been left as it is comes from the computation or is the text itself. -/
theorem orVerbatim_value {content : String} {x : Traced Highlighted} {result : Highlighted}
    (h : (x.orVerbatim content).value = .ok result) :
    x.value = .ok result ∨ result = .verbatim content := by
  rw [orVerbatim] at h
  split at h
  case h_1 => exact Or.inr (Except.ok.inj h).symm
  case h_2 => exact Or.inl h

end Traced

/-- A chunk handed to another language. -/
inductive Request
  | fixed (name content : String) (continuation : Option Continuation)
  | auto (names : List String) (content : String)

/-- The text of the chunk. -/
def Request.content : Request → String
  | .fixed _ content _ => content
  | .auto _ content => content

/-- The embedding answers the request with this result. -/
def Embedding.Answers (embedding : Embedding) : Request → Highlighted → Prop
  | .fixed name content continuation, result =>
    (embedding.fixed name content continuation).value = .ok (some result)
  | .auto names content, result => (embedding.auto names content).value = .ok result

/-! ### Requests made while events are turned into tokens -/

namespace Emission

variable (g : CompiledGrammar) (embedding : Embedding)

/-- The request that an event makes, if it is a chunk of a mode that embeds a language. -/
def request? (e : Emission) : Event → Option Request
  | .chunk index content =>
    match (g.mode index).subLanguage with
    | none => none
    | some (.fixed name) => some (.fixed name content (e.threads.lookup name))
    | some (.auto names) => some (.auto names content)
  | _ => none

/-- The requests that events make one after another, up to the first that fails. -/
def requests : Emission → List Event → List Request
  | _, [] => []
  | e, event :: rest =>
    (e.request? g event).toList ++
      match (e.add g embedding event).value with
      | .ok next => requests next rest
      | .error _ => []

/-- The states that adding an event can lead to. -/
inductive Added (e : Emission) : Event → Emission → Prop
  | begins (className : String) :
      Added e (.begins className) { e with stream := e.stream.push (.begins (.region className)) }
  | ends (className : String) :
      Added e (.ends className) { e with stream := e.stream.push (.ends (.region className)) }
  | score (weight : Relevance) : Added e (.score weight) (e.score weight)
  | classified {index : ModeIndex} {content : String} {stream : Stream} {relevance : Relevance}
      (hsub : (g.mode index).subLanguage = none)
      (hclassify : classify (g.mode index) content g.caseInsensitive e.stream =
        (stream, .ok relevance)) :
      Added e (.chunk index content) ({ e with stream := stream }.score relevance)
  | unregistered {index : ModeIndex} {content name : String}
      (hsub : (g.mode index).subLanguage = some (.fixed name))
      (hnone : (embedding.fixed name content (e.threads.lookup name)).value = .ok none) :
      Added e (.chunk index content) { e with stream := e.stream.pushText content }
  | fixed {index : ModeIndex} {content name : String} {result : Highlighted}
      (hsub : (g.mode index).subLanguage = some (.fixed name))
      (hresult : (embedding.fixed name content (e.threads.lookup name)).value = .ok (some result)) :
      Added e (.chunk index content)
        ((e.keepThread name result.continuation).addEmbedded (g.mode index) result)
  | auto {index : ModeIndex} {content : String} {names : List String} {result : Highlighted}
      (hsub : (g.mode index).subLanguage = some (.auto names))
      (hresult : (embedding.auto names content).value = .ok result) :
      Added e (.chunk index content) (e.addEmbedded (g.mode index) result)

variable {g embedding}

theorem add_eq_ok {e next : Emission} {event : Event}
    (h : (e.add g embedding event).value = .ok next) : Added g embedding e event next := by
  cases event with
  | begins className => cases h; exact .begins className
  | ends className => cases h; exact .ends className
  | score weight => cases h; exact .score weight
  | chunk index content =>
      rw [add, addChunk] at h
      split at h
      case h_1 hsub =>
        split at h
        case h_1 stream relevance hclassify => cases h; exact .classified hsub hclassify
        case h_2 => cases h
      case h_2 name hsub =>
        obtain ⟨answer, hanswer, h⟩ := Traced.bind_value_eq_ok.1 h
        cases answer with
        | none => cases h; exact .unregistered hsub hanswer
        | some result => cases h; exact .fixed hsub hanswer
      case h_3 names hsub =>
        obtain ⟨result, hresult, h⟩ := Traced.bind_value_eq_ok.1 h
        cases h
        exact .auto hsub hresult

theorem addAll_cons_eq_ok {e last : Emission} {event : Event} {rest : List Event}
    (h : (addAll g embedding e (event :: rest)).value = .ok last) :
    ∃ next, (e.add g embedding event).value = .ok next ∧
      (addAll g embedding next rest).value = .ok last := by
  rw [addAll] at h
  exact Traced.bind_value_eq_ok.1 h

@[simp] theorem stream_score (e : Emission) (weight : Relevance) :
    (e.score weight).stream = e.stream := rfl

@[simp] theorem stream_keepThread (e : Emission) (name : String)
    (continuation : Option Continuation) :
    (e.keepThread name continuation).stream = e.stream := by
  cases continuation with
  | none => rfl
  | some c => rfl

/-- An embedded result stands between the boundaries of its language, or joins the text around it
if it has none. -/
theorem stream_addEmbedded (e : Emission) (container : CompiledMode) (result : Highlighted) :
    (e.addEmbedded container result).stream =
      match result.language with
      | some name =>
        ((e.stream.push (.begins (.language name))).append result.tokens).push
          (.ends (.language name))
      | none => e.stream.appendJoined result.tokens := by
  rw [addEmbedded]
  by_cases hrelevance : container.relevance > 0
  · rw [if_pos hrelevance]
    cases result.language <;> rfl
  · rw [if_neg hrelevance]
    cases result.language <;> rfl

end Emission

/-- A result of highlighting by a grammar, taken apart. -/
theorem highlightByGrammar_eq_ok {g : CompiledGrammar} {embedding : Embedding} {name : String}
    {ignoreIllegals : Bool} {stack : Stack} {content : String} {result : Highlighted}
    (h : (highlightByGrammar g embedding name ignoreIllegals stack content).value = .ok result) :
    ∃ (e : Emission) (last : Stack),
      (Emission.addAll g embedding {}
        (scan g embedding.stepLimit ignoreIllegals stack content).events).value = .ok e ∧
      (scan g embedding.stepLimit ignoreIllegals stack content).outcome = .ok last ∧
      result = ⟨some name, e.relevance, e.stream.toList, some ⟨name, last⟩⟩ := by
  obtain ⟨e, he, h⟩ := Traced.bind_value_eq_ok.1 h
  obtain ⟨last, hlast, h⟩ := Traced.bind_value_eq_ok.1 h
  exact ⟨e, last, he, hlast, (Except.ok.inj h).symm⟩

/-- A result does not depend on which languages are noted as used. -/
theorem value_highlightCompiled {embedding : Embedding} {name content : String}
    {grammar : Except CompileError CompiledGrammar} {used : List String} {options : Options} :
    (highlightCompiled embedding name grammar used content options).value =
      (highlightCompiled embedding name grammar [] content options).value := by
  cases grammar with
  | error cause => rfl
  | ok g => simp only [highlightCompiled, Traced.value_bind, Traced.value_note]

namespace Highlighter

@[simp] theorem stepLimit_embedding (h : Highlighter) (depth : Nat) :
    (h.embedding depth).stepLimit = h.stepLimit := by
  cases depth <;> rfl

/-- An entry of the registry is highlighted by its language. -/
theorem value_highlightEntry (h : Highlighter) (entry : String × Entry) (content : String)
    (options : Options) :
    (highlightEntry (h.embedding h.embeddingLimit) entry content options).value =
      (h.highlightLanguage entry.2.language content options).value := by
  rw [highlightEntry, entry.2.grammar_eq, value_highlightCompiled]
  rfl

theorem value_highlightWith {h : Highlighter} {name : String} {language : Language}
    (hname : h.registry.get? name = some language) (content : String) (options : Options) :
    (h.highlightWith name content options).value =
      (h.highlightLanguage language content options).value := by
  obtain ⟨entry, hentry, rfl⟩ := Option.map_eq_some_iff.1 hname
  rw [highlightWith, hentry]
  exact h.value_highlightEntry entry content options

end Highlighter

/-! ### The scans of a call -/

/-- A scan: the grammar, whether illegal text is ignored, the modes open at the start, and the
text. -/
structure ScanCall where
  grammar : CompiledGrammar
  ignoreIllegals : Bool
  stack : Stack
  content : String

/-- The scans of highlighting by a compiled grammar: its own, and those of its requests. -/
def grammarScans (embedding : Embedding) (inner : Request → List ScanCall) (g : CompiledGrammar)
    (ignoreIllegals : Bool) (stack : Stack) (content : String) : List ScanCall :=
  ⟨g, ignoreIllegals, stack, content⟩ ::
    (Emission.requests g embedding {}
      (scan g embedding.stepLimit ignoreIllegals stack content).events).flatMap inner

/-- The scans of highlighting by a language whose compiled grammar is given. -/
def compiledScans (embedding : Embedding) (inner : Request → List ScanCall) (name : String)
    (grammar : Except CompileError CompiledGrammar) (content : String) (options : Options) :
    List ScanCall :=
  match grammar, options.startFor name with
  | .ok g, .ok stack => grammarScans embedding inner g options.ignoreIllegals stack content
  | _, _ => []

namespace Highlighter

/-- The scans of highlighting by an entry of the registry. -/
def entryScans (embedding : Embedding) (inner : Request → List ScanCall)
    (entry : String × Entry) (content : String) (options : Options) : List ScanCall :=
  compiledScans embedding inner entry.2.language.name entry.2.grammar.get content options

/-- The scans of answering a request when languages may be embedded in each other so deep. -/
def requestScans (h : Highlighter) : Nat → Request → List ScanCall
  | 0, _ => []
  | depth + 1, .fixed name content continuation =>
    match h.registry.find? name with
    | none => []
    | some entry =>
      entryScans (h.embedding depth) (h.requestScans depth) entry content
        { ignoreIllegals := true, continuation := continuation }
  | depth + 1, .auto names content =>
    (h.entriesAmong names).flatMap fun entry =>
      entryScans (h.embedding depth) (h.requestScans depth) entry content {}

/-- The scans of `highlightLanguage`. -/
def scansLanguage (h : Highlighter) (language : Language) (content : String) (options : Options) :
    List ScanCall :=
  compiledScans (h.embedding h.embeddingLimit) (h.requestScans h.embeddingLimit) language.name
    language.compile content options

/-- The scans of `highlightWith`. -/
def scansWith (h : Highlighter) (name content : String) (options : Options) : List ScanCall :=
  match h.registry.find? name with
  | none => []
  | some entry =>
    entryScans (h.embedding h.embeddingLimit) (h.requestScans h.embeddingLimit) entry content
      options

/-- The scans of `highlightAmong`. -/
def scansAmong (h : Highlighter) (content : String) (names : List String) : List ScanCall :=
  (h.entriesAmong names).flatMap fun entry =>
    entryScans (h.embedding h.embeddingLimit) (h.requestScans h.embeddingLimit) entry content {}

end Highlighter

/-- Every registered language that compiles has a compiled grammar with the property. -/
def Registry.AllCompiled (r : Registry) (G : CompiledGrammar → Prop) : Prop :=
  ∀ entry ∈ r.languages.entries, ∀ g, entry.2.language.compile = .ok g → G g

theorem Registry.mem_of_find? {r : Registry} {name : String} {entry : String × Entry}
    (hentry : r.find? name = some entry) : entry ∈ r.languages.entries := by
  rw [find?] at hentry
  obtain ⟨key, -, hentry⟩ := Option.bind_eq_some_iff.1 hentry
  obtain ⟨found, hfound, heq⟩ := Option.bind_eq_some_iff.1 hentry
  cases heq
  obtain ⟨before, after, hentries, -⟩ := List.lookup_eq_some_iff.1 hfound
  rw [hentries]
  exact List.mem_append_right before List.mem_cons_self

theorem Highlighter.mem_of_mem_entriesAmong (h : Highlighter) {names : List String}
    {entry : String × Entry} (hentry : entry ∈ h.entriesAmong names) :
    entry ∈ h.registry.languages.entries := by
  have hfound : ∀ known : List String, entry ∈ known.filterMap h.registry.find? →
      entry ∈ h.registry.languages.entries := by
    intro known hmem
    obtain ⟨name, -, hname⟩ := List.mem_filterMap.1 hmem
    exact Registry.mem_of_find? hname
  have hall := (List.mem_filter.1 hentry).1
  split at hall
  · exact hfound names hall
  · split at hall
    · exact hfound _ hall
    · exact hall

/-! ### Properties of all results -/

/-- A property of results that text left as it is has, and that highlighting by a grammar passes on
from the answers to its requests. The grammar and the scan may be known to satisfy `G` and `Q`. -/
structure Hereditary (G : CompiledGrammar → Prop) (Q : ScanCall → Prop)
    (P : String → Highlighted → Prop) : Prop where
  verbatim : ∀ content, P content (.verbatim content)
  byGrammar : ∀ {g : CompiledGrammar} {embedding : Embedding} {name : String}
    {ignoreIllegals : Bool} {stack : Stack} {content : String} {result : Highlighted},
    G g → Q ⟨g, ignoreIllegals, stack, content⟩ →
    (∀ request ∈ Emission.requests g embedding {}
        (scan g embedding.stepLimit ignoreIllegals stack content).events,
      ∀ inner, embedding.Answers request inner → P request.content inner) →
    (highlightByGrammar g embedding name ignoreIllegals stack content).value = .ok result →
    P content result

namespace Hereditary

variable {G : CompiledGrammar → Prop} {Q : ScanCall → Prop} {P : String → Highlighted → Prop}
  {h : Highlighter}

theorem compiled (hP : Hereditary G Q P) {embedding : Embedding}
    {inner : Request → List ScanCall} {name content : String} {used : List String}
    {grammar : Except CompileError CompiledGrammar} {options : Options} {result : Highlighted}
    (hinner : ∀ request, (∀ call ∈ inner request, Q call) →
      ∀ answer, embedding.Answers request answer → P request.content answer)
    (hG : ∀ g, grammar = .ok g → G g)
    (hQ : ∀ call ∈ compiledScans embedding inner name grammar content options, Q call)
    (hresult : (highlightCompiled embedding name grammar used content options).value =
      .ok result) : P content result := by
  cases grammar with
  | error cause => cases hresult
  | ok g =>
      rw [highlightCompiled] at hresult
      obtain ⟨-, -, hresult⟩ := Traced.bind_value_eq_ok.1 hresult
      obtain ⟨stack, hstack, hresult⟩ := Traced.bind_value_eq_ok.1 hresult
      rw [Traced.value_ofExcept] at hstack
      rcases Traced.orVerbatim_value hresult with hresult | rfl
      · simp only [compiledScans, hstack, grammarScans, List.mem_cons, List.mem_flatMap] at hQ
        refine hP.byGrammar (hG g rfl) (hQ _ (Or.inl rfl)) (fun request hrequest => ?_) hresult
        exact hinner request fun call hcall => hQ call (Or.inr ⟨request, hrequest, hcall⟩)
      · exact hP.verbatim content

theorem entry (hP : Hereditary G Q P) {embedding : Embedding} {inner : Request → List ScanCall}
    {entry : String × Entry} {content : String} {options : Options} {result : Highlighted}
    (hinner : ∀ request, (∀ call ∈ inner request, Q call) →
      ∀ answer, embedding.Answers request answer → P request.content answer)
    (hG : ∀ g, entry.2.language.compile = .ok g → G g)
    (hQ : ∀ call ∈ Highlighter.entryScans embedding inner entry content options, Q call)
    (hresult : (Highlighter.highlightEntry embedding entry content options).value = .ok result) :
    P content result := by
  refine hP.compiled hinner (fun g hg => hG g ?_) hQ hresult
  rw [← hg, entry.2.grammar_eq]

/-- Ranking results that have the property keeps two of them. -/
theorem rank (hP : Hereditary G Q P) {embedding : Embedding} {inner : Request → List ScanCall}
    {entries : List (String × Entry)} {content : String} {ranking last : Ranking}
    (hinner : ∀ request, (∀ call ∈ inner request, Q call) →
      ∀ answer, embedding.Answers request answer → P request.content answer)
    (hG : ∀ entry ∈ entries, ∀ g, entry.2.language.compile = .ok g → G g)
    (hQ : ∀ entry ∈ entries, ∀ call ∈ Highlighter.entryScans embedding inner entry content {},
      Q call)
    (hbest : P content ranking.best) (hsecond : P content ranking.second)
    (hlast : (Highlighter.rank embedding content entries ranking).value = .ok last) :
    P content last.best ∧ P content last.second := by
  induction entries generalizing ranking with
  | nil =>
      cases hlast
      exact ⟨hbest, hsecond⟩
  | cons entry rest ih =>
      rw [Highlighter.rank] at hlast
      obtain ⟨result, hresult, hlast⟩ := Traced.bind_value_eq_ok.1 hlast
      have hresult : P content result :=
        hP.entry hinner (hG entry List.mem_cons_self) (hQ entry List.mem_cons_self) hresult
      have hadd : P content (ranking.add result).best ∧ P content (ranking.add result).second := by
        rw [Ranking.add]
        split
        · exact ⟨hresult, hbest⟩
        · split
          · exact ⟨hbest, hresult⟩
          · exact ⟨hbest, hsecond⟩
      exact ih (fun other hmem => hG other (List.mem_cons_of_mem entry hmem))
        (fun other hmem => hQ other (List.mem_cons_of_mem entry hmem)) hadd.1 hadd.2 hlast

/-- The property holds of every answer to a request, by induction on how deep languages may be
embedded in each other. -/
theorem answer (hP : Hereditary G Q P) (hG : h.registry.AllCompiled G) (depth : Nat)
    (request : Request) (hQ : ∀ call ∈ h.requestScans depth request, Q call)
    (result : Highlighted) (hresult : (h.embedding depth).Answers request result) :
    P request.content result := by
  induction depth generalizing request result with
  | zero => cases request <;> cases hresult
  | succ depth ih =>
      cases request with
      | fixed name content continuation =>
          simp only [Embedding.Answers, Highlighter.embedding] at hresult
          simp only [Highlighter.requestScans] at hQ
          split at hresult
          case h_1 => cases hresult
          case h_2 entry hentry =>
            simp only [hentry] at hQ
            obtain ⟨answer, hanswer, heq⟩ := Traced.bind_value_eq_ok.1 hresult
            cases heq
            exact hP.entry ih (hG entry (Registry.mem_of_find? hentry)) hQ hanswer
      | auto names content =>
          simp only [Highlighter.requestScans, List.mem_flatMap] at hQ
          obtain ⟨ranking, hranking, heq⟩ := Traced.bind_value_eq_ok.1 hresult
          cases heq
          refine (hP.rank ih (fun entry hentry => ?_) (fun entry hentry call hcall => ?_)
            (hP.verbatim content) (hP.verbatim content) hranking).1
          · exact hG entry (h.mem_of_mem_entriesAmong hentry)
          · exact hQ call ⟨entry, hentry, hcall⟩

theorem highlightLanguage (hP : Hereditary G Q P) (hG : h.registry.AllCompiled G)
    {language : Language} {content : String} {options : Options} {result : Highlighted}
    (hlanguage : ∀ g, language.compile = .ok g → G g)
    (hQ : ∀ call ∈ h.scansLanguage language content options, Q call)
    (hresult : (h.highlightLanguage language content options).value = .ok result) :
    P content result :=
  hP.compiled (hP.answer hG h.embeddingLimit) hlanguage hQ hresult

theorem highlightWith (hP : Hereditary G Q P) (hG : h.registry.AllCompiled G)
    {name content : String} {options : Options} {result : Highlighted}
    (hQ : ∀ call ∈ h.scansWith name content options, Q call)
    (hresult : (h.highlightWith name content options).value = .ok result) :
    P content result := by
  rw [Highlighter.highlightWith] at hresult
  rw [Highlighter.scansWith] at hQ
  split at hresult
  case h_1 => cases hresult
  case h_2 entry hentry =>
    simp only [hentry] at hQ
    exact hP.entry (hP.answer hG h.embeddingLimit) (hG entry (Registry.mem_of_find? hentry)) hQ
      hresult

theorem highlightAmong (hP : Hereditary G Q P) (hG : h.registry.AllCompiled G)
    {content : String} {names : List String} {detection : Detection}
    (hQ : ∀ call ∈ h.scansAmong content names, Q call)
    (hresult : (h.highlightAmong content names).value = .ok detection) :
    P content detection.best ∧ ∀ second ∈ detection.second, P content second := by
  obtain ⟨ranking, hranking, heq⟩ := Traced.bind_value_eq_ok.1 hresult
  cases heq
  simp only [Highlighter.scansAmong, List.mem_flatMap] at hQ
  have hboth := hP.rank (hP.answer hG h.embeddingLimit)
    (fun entry hentry => hG entry (h.mem_of_mem_entriesAmong hentry))
    (fun entry hentry call hcall => hQ call ⟨entry, hentry, hcall⟩)
    (hP.verbatim content) (hP.verbatim content) hranking
  refine ⟨hboth.1, fun second hsecond => ?_⟩
  rw [Ranking.toDetection] at hsecond
  split at hsecond
  · cases hsecond
    exact hboth.2
  · cases hsecond

end Hereditary

/-! ### A sample registry -/

/-- A property of the result of a computation can be decided by running it. -/
instance decidableForallOk {ε α : Type} (x : Except ε α) (G : α → Prop) [DecidablePred G] :
    Decidable (∀ a, x = .ok a → G a) :=
  match x with
  | .ok a => decidable_of_iff (G a) ⟨fun h _ heq => Except.ok.inj heq ▸ h, fun h => h a rfl⟩
  | .error _ => isTrue fun _ heq => nomatch heq

instance (r : Registry) (G : CompiledGrammar → Prop) [DecidablePred G] :
    Decidable (r.AllCompiled G) :=
  inferInstanceAs (Decidable
    (∀ entry ∈ r.languages.entries, ∀ g, entry.2.language.compile = .ok g → G g))

/-- A language whose quoted text is in another language. -/
def sampleHost : Language where
  name := "host"
  grammar := ⟨#[{ contains := [.mode 1], lexemes := some "z" },
    { className := some "quoted", beginPattern := some "<", endPattern := some ">"
      lexemes := some "z", subLanguage := some (.fixed "inner")
      flags := { excludeBegin := true, excludeEnd := true } }], by decide⟩

/-- A language with numbers, whose end is read again after them. -/
def sampleInner : Language where
  name := "inner"
  grammar := ⟨#[{ contains := [.mode 1], lexemes := some "z" },
    { className := some "number", beginPattern := some "1", endPattern := some "2"
      lexemes := some "z", flags := { returnEnd := true } }], by decide⟩

/-- A highlighter that knows both. -/
def sampleHighlighter : Highlighter where
  registry := (Registry.empty.register sampleHost).register sampleInner

end LexicalModes
