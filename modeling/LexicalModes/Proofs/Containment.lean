import LexicalModes.Proofs.Failures

/-!
Errors stay contained. What a mode embeds is looked up before it is highlighted, so it is never
unknown; what is illegal in it is left as it is; and a chunk is continued under the name by which
the chunk before was highlighted, which leads to the same language again (`Highlighter.Fits`), so
its continuation is never foreign. By induction on how deep languages are embedded in each other, a
request fails only because a grammar is malformed or because a search was given up
(`HighlightFault.Contained`). A call adds to these only what its caller can see: the name and the
continuation it was given.
-/

namespace LexicalModes

open Pattern

/-- The faults that a call can pass on from the requests it makes. -/
inductive HighlightFault.Contained : HighlightFault → Prop
  | malformedGrammar (cause : CompileError) : Contained (.malformedGrammar cause)
  | matching (reason : String) : Contained (.matching reason)

/-- If the error is a fault, it is one that a call can pass on. -/
def HighlightError.PassedOn : HighlightError → Prop
  | .failed fault => fault.Contained
  | .stopped _ => True

theorem contained_ofMatchError (e : MatchError) : (HighlightFault.ofMatchError e).Contained := by
  cases e <;> exact .matching _

/-! ### The outcomes of a call -/

/-- The result was given by the language, and says where the text finished in it. -/
structure Highlighted.GivenBy (result : Highlighted) (name : String) : Prop where
  language : result.language = some name
  continuation : ∃ stack, result.continuation = some ⟨name, stack⟩

theorem startFor_eq_error {options : Options} {name : String} {e : HighlightError}
    (h : options.startFor name = .error e) :
    ∃ c, options.continuation = some c ∧ c.language ≠ name ∧
      e = .foreignContinuation name c.language := by
  rw [Options.startFor] at h
  split at h
  case h_1 => cases h
  case h_2 c hc =>
    split at h
    · cases h
    · cases h
      exact ⟨c, hc, ‹_›, rfl⟩

theorem failsOnly_orVerbatim {P : HighlightError → Prop} {content : String}
    {x : Traced Highlighted}
    (hx : FailsOnly (fun e => P e ∨ ∃ mode lexeme, e = .illegalLexeme mode lexeme) x.value) :
    FailsOnly P (x.orVerbatim content).value := by
  rw [Traced.orVerbatim]
  split
  case h_1 => exact failsOnly_ok _
  case h_2 hlegal =>
    intro e he
    rcases hx e he with hP | ⟨mode, lexeme, rfl⟩
    · exact hP
    · exact absurd he (hlegal mode lexeme)

/-- A result of highlighting by a compiled grammar, taken apart: it is that of the scan, or the scan
met something illegal. -/
theorem highlightCompiled_eq_ok {embedding : Embedding} {name content : String}
    {grammar : Except CompileError CompiledGrammar} {used : List String} {options : Options}
    {result : Highlighted}
    (h : (highlightCompiled embedding name grammar used content options).value = .ok result) :
    ∃ g stack, grammar = .ok g ∧ options.startFor name = .ok stack ∧
      ((highlightByGrammar g embedding name options.ignoreIllegals stack content).value =
          .ok result ∨
        (∃ mode lexeme, (highlightByGrammar g embedding name options.ignoreIllegals stack
          content).value = .error (.illegalLexeme mode lexeme)) ∧ result = .verbatim content) := by
  cases grammar with
  | error cause => cases h
  | ok g =>
      rw [highlightCompiled] at h
      obtain ⟨-, -, h⟩ := Traced.bind_value_eq_ok.1 h
      obtain ⟨stack, hstack, h⟩ := Traced.bind_value_eq_ok.1 h
      refine ⟨g, stack, rfl, hstack, ?_⟩
      rw [Traced.orVerbatim] at h
      split at h
      case h_1 mode lexeme hillegal =>
        exact .inr ⟨⟨mode, lexeme, hillegal⟩, (Except.ok.inj h).symm⟩
      case h_2 => exact .inl h

theorem givenBy_of_highlightByGrammar {g : CompiledGrammar} {embedding : Embedding} {name : String}
    {ignoreIllegals : Bool} {stack : Stack} {content : String} {result : Highlighted}
    (h : (highlightByGrammar g embedding name ignoreIllegals stack content).value = .ok result) :
    result.GivenBy name := by
  obtain ⟨e, last, -, -, rfl⟩ := highlightByGrammar_eq_ok h
  exact ⟨rfl, last, rfl⟩

theorem givenBy_or_verbatim {embedding : Embedding} {name content : String}
    {grammar : Except CompileError CompiledGrammar} {used : List String} {options : Options}
    {result : Highlighted}
    (h : (highlightCompiled embedding name grammar used content options).value = .ok result) :
    result.GivenBy name ∨ result = .verbatim content := by
  obtain ⟨g, stack, -, -, hresult | ⟨-, rfl⟩⟩ := highlightCompiled_eq_ok h
  · exact .inl (givenBy_of_highlightByGrammar hresult)
  · exact .inr rfl

/-- A result of highlighting by name is that of the entry the name leads to. -/
theorem Highlighter.highlightWith_eq_ok {h : Highlighter} {name content : String}
    {options : Options} {result : Highlighted}
    (hresult : (h.highlightWith name content options).value = .ok result) :
    ∃ entry : String × Entry, h.registry.get? name = some entry.2.language ∧
      (highlightEntry (h.embedding h.embeddingLimit) entry content options).value =
        .ok result := by
  rw [highlightWith] at hresult
  split at hresult
  case h_1 => cases hresult
  case h_2 entry hentry =>
    refine ⟨entry, ?_, hresult⟩
    rw [Registry.get?, hentry]
    rfl

theorem verbatim_eq (content : String) :
    Highlighted.verbatim content =
      ⟨none, 0, if content = "" then [] else [.text content], none⟩ := by
  rw [Highlighted.verbatim, Stream.pushText]
  by_cases hempty : content = ""
  · rw [if_pos hempty, if_pos (String.isEmpty_iff.2 hempty)]
    rfl
  · rw [if_neg hempty, if_neg (mt String.isEmpty_iff.1 hempty)]
    rfl

/-! ### Continuations of chunks -/

namespace Highlighter

variable (h : Highlighter)

/-- The continuation is one of the language that the name leads to. -/
def Fits (name : String) (c : Continuation) : Prop :=
  ∀ entry ∈ h.registry.find? name, c.language = entry.2.language.name

/-- A chunk that is continued is continued in the language it is handed to. -/
def FitsRequest : Request → Prop
  | .fixed name _ continuation => ∀ c ∈ continuation, h.Fits name c
  | .auto _ _ => True

variable {h}

theorem fits_of_answer {depth : Nat} {name content : String} {earlier : Option Continuation}
    {result : Highlighted}
    (hanswer : ((h.embedding depth).fixed name content earlier).value = .ok (some result)) :
    ∀ c ∈ result.continuation, h.Fits name c := by
  cases depth with
  | zero => cases hanswer
  | succ depth =>
      rw [embedding] at hanswer
      dsimp only at hanswer
      split at hanswer
      case h_1 => cases hanswer
      case h_2 entry hentry =>
        obtain ⟨answer, hanswer, heq⟩ := Traced.bind_value_eq_ok.1 hanswer
        cases heq
        intro c hc other hother
        rw [hentry] at hother
        cases hother
        rcases givenBy_or_verbatim hanswer with hgiven | rfl
        · obtain ⟨stack, hstack⟩ := hgiven.continuation
          rw [hstack] at hc
          cases hc
          rfl
        · cases hc

end Highlighter

namespace Emission

@[simp] theorem threads_addEmbedded (e : Emission) (container : CompiledMode)
    (result : Highlighted) : (e.addEmbedded container result).threads = e.threads := by
  rw [addEmbedded]
  by_cases hrelevance : container.relevance > 0
  · rw [if_pos hrelevance]
    cases result.language <;> rfl
  · rw [if_neg hrelevance]
    cases result.language <;> rfl

theorem mem_threads_keepThread {e : Emission} {name : String} {continuation : Option Continuation}
    {thread : String × Continuation}
    (hthread : thread ∈ (e.keepThread name continuation).threads) :
    thread ∈ e.threads ∨ thread.1 = name ∧ continuation = some thread.2 := by
  cases continuation with
  | none => exact .inl (List.mem_of_mem_filter hthread)
  | some c =>
      rcases List.mem_cons.1 hthread with rfl | hthread
      · exact .inr ⟨rfl, rfl⟩
      · exact .inl (List.mem_of_mem_filter hthread)

variable {h : Highlighter} {depth : Nat} {g : CompiledGrammar}

variable (h) in
/-- Every chunk is kept under a name that leads to its language. -/
def Threaded (e : Emission) : Prop := ∀ thread ∈ e.threads, h.Fits thread.1 thread.2

theorem Threaded.add {e next : Emission} {event : Event} (he : e.Threaded h)
    (hadd : (e.add g (h.embedding depth) event).value = .ok next) : next.Threaded h := by
  cases add_eq_ok hadd with
  | begins className => exact he
  | ends className => exact he
  | score weight => exact he
  | classified hsub hclassify => exact he
  | unregistered hsub hnone => exact he
  | fixed hsub hresult =>
      intro thread hthread
      rw [threads_addEmbedded] at hthread
      rcases mem_threads_keepThread hthread with hbefore | ⟨rfl, hcontinuation⟩
      · exact he thread hbefore
      · exact Highlighter.fits_of_answer hresult thread.2 hcontinuation
  | auto hsub hresult =>
      intro thread hthread
      rw [threads_addEmbedded] at hthread
      exact he thread hthread

theorem Threaded.fitsRequest {e : Emission} (he : e.Threaded h) {event : Event} {request : Request}
    (hrequest : request ∈ e.request? g event) : h.FitsRequest request := by
  cases event with
  | begins className => cases hrequest
  | ends className => cases hrequest
  | score weight => cases hrequest
  | chunk index content =>
      rw [request?] at hrequest
      split at hrequest
      case h_1 => cases hrequest
      case h_2 name hsub =>
        cases hrequest
        intro c hc
        obtain ⟨before, after, hthreads, -⟩ := List.lookup_eq_some_iff.1 hc
        refine he (name, c) ?_
        rw [hthreads]
        exact List.mem_append_right before List.mem_cons_self
      case h_3 names hsub =>
        cases hrequest
        exact trivial

/-- All requests of a run continue chunks in the language they are handed to. -/
theorem Threaded.fitsRequests {e : Emission} (he : e.Threaded h) {events : List Event}
    {request : Request} (hrequest : request ∈ requests g (h.embedding depth) e events) :
    h.FitsRequest request := by
  induction events generalizing e with
  | nil => cases hrequest
  | cons event rest ih =>
      rw [requests] at hrequest
      rcases List.mem_append.1 hrequest with hfirst | hrest
      · exact he.fitsRequest (Option.mem_toList.1 hfirst)
      · split at hrest
        case h_1 next hnext => exact ih (he.add hnext) hrest
        case h_2 => cases hrest

theorem threaded_empty : Threaded h {} := List.forall_mem_nil _

end Emission

/-! ### What requests fail with -/

namespace Highlighter

variable {h : Highlighter} {depth : Nat}

variable (h depth) in
/-- Requests that continue a chunk in its language fail only with what is contained. -/
def ContainsFailures : Prop :=
  ∀ request, h.FitsRequest request → ∀ e, (h.embedding depth).Fails request e → e.PassedOn

/-- **One level.** Highlighting by a grammar fails with what its requests can fail with, or because
of an illegal lexeme that is not ignored. -/
theorem failsOnly_highlightByGrammar
    (hrequests : h.ContainsFailures depth)
    (g : CompiledGrammar) (name : String) (ignoreIllegals : Bool) (stack : Stack)
    (content : String) :
    FailsOnly (fun e => e.PassedOn ∨
        ignoreIllegals = false ∧ ∃ mode lexeme, e = .illegalLexeme mode lexeme)
      (highlightByGrammar g (h.embedding depth) name ignoreIllegals stack content).value := by
  refine FailsOnly.traced (FailsOnly.mono ?_ fun e => .inl) fun e _ => ?_
  · refine Emission.failsOnly_addAll contained_ofMatchError fun request hrequest => ?_
    exact hrequests request (Emission.threaded_empty.fitsRequests hrequest)
  · refine FailsOnly.traced ?_ fun _ _ => failsOnly_ok _
    refine failsOnly_scan (fun e => .inl (contained_ofMatchError e)) ?_ (.inl trivial) _ stack
      content
    intro hstrict mode lexeme
    exact .inr ⟨hstrict, mode, lexeme, rfl⟩

/-- An illegal lexeme is no reason to fail, but a foreign continuation is. -/
theorem failsOnly_highlightCompiled
    (hrequests : h.ContainsFailures depth)
    (name : String) (grammar : Except CompileError CompiledGrammar) (used : List String)
    (content : String) (options : Options) :
    FailsOnly (fun e => e.PassedOn ∨ options.startFor name = .error e)
      (highlightCompiled (h.embedding depth) name grammar used content options).value := by
  cases grammar with
  | error cause => exact failsOnly_error.2 (.inl (.malformedGrammar cause))
  | ok g =>
      rw [highlightCompiled]
      refine FailsOnly.traced (failsOnly_ok _) fun _ _ => ?_
      refine FailsOnly.traced (fun e he => .inr he) fun stack _ => failsOnly_orVerbatim ?_
      refine (failsOnly_highlightByGrammar hrequests g name _ stack content).mono fun e he => ?_
      exact he.imp .inl And.right

theorem failsOnly_rank
    (hrequests : h.ContainsFailures depth)
    (content : String) (entries : List (String × Entry)) (ranking : Ranking) :
    FailsOnly HighlightError.PassedOn (rank (h.embedding depth) content entries ranking).value := by
  induction entries generalizing ranking with
  | nil => exact failsOnly_ok _
  | cons entry rest ih =>
      rw [rank]
      refine FailsOnly.traced ?_ fun result _ => ih _
      refine (failsOnly_highlightCompiled hrequests _ _ _ _ _).mono fun e he => ?_
      refine he.resolve_right fun hforeign => ?_
      cases hforeign

/-- **Every level** contains the failures of the requests made to it. -/
theorem containsFailures (h : Highlighter) (depth : Nat) : h.ContainsFailures depth := by
  induction depth with
  | zero =>
      intro request _ e hfails
      cases request with
      | fixed name content continuation =>
          cases hfails
          trivial
      | auto names content =>
          cases hfails
          trivial
  | succ depth ih =>
      intro request hfits e hfails
      cases request with
      | fixed name content continuation =>
          simp only [Embedding.Fails, embedding] at hfails
          split at hfails
          case h_1 => cases hfails
          case h_2 entry hentry =>
            have hentryFails : FailsOnly HighlightError.PassedOn
                (highlightEntry (h.embedding depth) entry content
                  { ignoreIllegals := true, continuation := continuation }).value := by
              refine (failsOnly_highlightCompiled ih _ _ _ _ _).mono fun e he => ?_
              refine he.resolve_right fun hforeign => ?_
              obtain ⟨c, hc, hne, -⟩ := startFor_eq_error hforeign
              exact hne (hfits c hc entry hentry)
            exact FailsOnly.traced hentryFails (fun _ _ => failsOnly_ok _) e hfails
      | auto names content =>
          exact FailsOnly.traced (failsOnly_rank ih content _ _)
            (fun _ _ => failsOnly_ok _) e hfails

end Highlighter

/-! ### Detection -/

namespace Ranking

/-- What the two best results are like when all others are of the kind or the text left as it is:
the text alone, or a result of the kind and perhaps another one. -/
def Settled (content : String) (Given : Highlighted → Prop) (r : Ranking) : Prop :=
  (r.best = .verbatim content ∧ r.second = .verbatim content) ∨
    (Given r.best ∧ 0 < r.best.relevance ∧ (r.second = .verbatim content ∨ Given r.second))

theorem Settled.add {content : String} {Given : Highlighted → Prop} {r : Ranking}
    (hr : r.Settled content Given) {result : Highlighted}
    (hresult : Given result ∨ result = .verbatim content) :
    (r.add result).Settled content Given := by
  rw [Ranking.add]
  -- A result that scores more than another one is not the text left as it is.
  have hscores : ∀ other : Highlighted, result.relevance > other.relevance → Given result := by
    intro other hmore
    refine hresult.resolve_right ?_
    rintro rfl
    exact Nat.not_lt_zero _ hmore
  by_cases hbest : result.relevance > r.best.relevance
  · rw [if_pos hbest]
    refine .inr ⟨hscores _ hbest, Nat.zero_lt_of_lt hbest, ?_⟩
    rcases hr with ⟨hr, -⟩ | ⟨hr, -, -⟩
    · exact .inl hr
    · exact .inr hr
  · rw [if_neg hbest]
    by_cases hsecond : result.relevance > r.second.relevance
    · rw [if_pos hsecond]
      rcases hr with ⟨hr, -⟩ | ⟨hr, hpos, -⟩
      · rw [hr] at hbest
        exact absurd (Nat.zero_lt_of_lt hsecond) hbest
      · exact .inr ⟨hr, hpos, .inr (hscores _ hsecond)⟩
    · rw [if_neg hsecond]
      exact hr

end Ranking

theorem Highlighter.settled_rank {embedding : Embedding} {content : String}
    {entries : List (String × Entry)} {Given : Highlighted → Prop} {ranking last : Ranking}
    (hentries : ∀ entry ∈ entries, ∀ result,
      (highlightEntry embedding entry content {}).value = .ok result →
      Given result ∨ result = .verbatim content)
    (hranking : ranking.Settled content Given)
    (hlast : (rank embedding content entries ranking).value = .ok last) :
    last.Settled content Given := by
  induction entries generalizing ranking with
  | nil =>
      cases hlast
      exact hranking
  | cons entry rest ih =>
      rw [rank] at hlast
      obtain ⟨result, hresult, hlast⟩ := Traced.bind_value_eq_ok.1 hlast
      exact ih (fun other hother => hentries other (List.mem_cons_of_mem entry hother))
        (hranking.add (hentries entry List.mem_cons_self result hresult)) hlast

/-- A detection is the text left as it is, or a result of one of the languages tried and perhaps
that of another. -/
theorem Highlighter.detection_cases {h : Highlighter} {content : String} {names : List String}
    {detection : Detection} (hdetection : (h.highlightAmong content names).value = .ok detection) :
    detection = ⟨.verbatim content, none⟩ ∨
      ∀ result, (result = detection.best ∨ result ∈ detection.second) →
        ∃ entry ∈ h.entriesAmong names, result.GivenBy entry.2.language.name ∧
          (highlightEntry (h.embedding h.embeddingLimit) entry content {}).value = .ok result := by
  obtain ⟨ranking, hranking, heq⟩ := Traced.bind_value_eq_ok.1 hdetection
  cases heq
  have hsettled : ranking.Settled content fun result => ∃ entry ∈ h.entriesAmong names,
      result.GivenBy entry.2.language.name ∧
        (highlightEntry (h.embedding h.embeddingLimit) entry content {}).value = .ok result := by
    refine settled_rank (fun entry hentry result hresult => ?_) (.inl ⟨rfl, rfl⟩) hranking
    exact (givenBy_or_verbatim hresult).imp_left fun hgiven => ⟨entry, hentry, hgiven, hresult⟩
  rcases hsettled with ⟨hbest, hsecond⟩ | ⟨hbest, -, hsecond⟩
  · left
    rw [Ranking.toDetection, hbest, hsecond]
    rfl
  · right
    rintro result (rfl | hresult)
    · exact hbest
    · rw [Ranking.toDetection] at hresult
      split at hresult
      case isTrue hlanguage =>
        cases hresult
        refine hsecond.resolve_left fun hverbatim => ?_
        rw [hverbatim] at hlanguage
        cases hlanguage
      case isFalse => cases hresult

/-- **Errors stay contained.** A call fails with what its requests can fail with, because its own
name leads to no language, or because its own continuation is of another language; its requests,
whatever languages they are made to, fail only with what is contained. A result is by the language,
with a continuation for it, or is exactly the text left as it is. -/
theorem errors_stay_contained (h : Highlighter) :
    (∀ (name content : String) (options : Options) (fault : HighlightFault),
      (h.highlightWith name content options).value = .error (.failed fault) →
      fault.Contained ∨ (h.registry.get? name = none ∧ fault = .unknownLanguage name) ∨
        ∃ language c, h.registry.get? name = some language ∧ options.continuation = some c ∧
          c.language ≠ language.name ∧ fault = .foreignContinuation language.name c.language) ∧
    (∀ (language : Language) (content : String) (options : Options) (fault : HighlightFault),
      (h.highlightLanguage language content options).value = .error (.failed fault) →
      fault.Contained ∨ ∃ c, options.continuation = some c ∧ c.language ≠ language.name ∧
        fault = .foreignContinuation language.name c.language) ∧
    (∀ (content : String) (names : List String) (fault : HighlightFault),
      (h.highlightAmong content names).value = .error (.failed fault) → fault.Contained) ∧
    (∀ (depth : Nat) (g : CompiledGrammar) (ignoreIllegals : Bool) (stack : Stack)
      (content : String),
      ∀ request ∈ Emission.requests g (h.embedding depth) {}
        (scan g h.stepLimit ignoreIllegals stack content).events,
      ∀ fault, (h.embedding depth).Fails request (.failed fault) → fault.Contained) ∧
    (∀ (name content : String) (options : Options) (result : Highlighted),
      (h.highlightWith name content options).value = .ok result →
      (∃ language, h.registry.get? name = some language ∧ result.GivenBy language.name) ∨
        result = .verbatim content) ∧
    (∀ (language : Language) (content : String) (options : Options) (result : Highlighted),
      (h.highlightLanguage language content options).value = .ok result →
      result.GivenBy language.name ∨ result = .verbatim content) ∧
    (∀ (content : String) (names : List String) (detection : Detection),
      (h.highlightAmong content names).value = .ok detection →
      detection = ⟨.verbatim content, none⟩ ∨
        ∀ result, (result = detection.best ∨ result ∈ detection.second) →
          ∃ entry ∈ h.entriesAmong names, result.GivenBy entry.2.language.name) ∧
    (∀ content : String, Highlighted.verbatim content =
      ⟨none, 0, if content = "" then [] else [.text content], none⟩) := by
  have hrequests := h.containsFailures h.embeddingLimit
  refine ⟨?_, ?_, ?_, ?_, ?_, ?_, ?_, verbatim_eq⟩
  · intro name content options fault hfault
    rw [Highlighter.highlightWith] at hfault
    split at hfault
    case h_1 hnone =>
      cases hfault
      exact .inr (.inl ⟨by rw [Registry.get?, hnone]; rfl, rfl⟩)
    case h_2 entry hentry =>
      refine (Highlighter.failsOnly_highlightCompiled hrequests _ _ _ _ _ _ hfault).imp_right
        fun hforeign => ?_
      obtain ⟨c, hc, hne, heq⟩ := startFor_eq_error hforeign
      exact .inr ⟨entry.2.language, c, by rw [Registry.get?, hentry]; rfl, hc, hne,
        HighlightError.failed.inj heq⟩
  · intro language content options fault hfault
    refine (Highlighter.failsOnly_highlightCompiled hrequests _ _ _ _ _ _ hfault).imp_right
      fun hforeign => ?_
    obtain ⟨c, hc, hne, heq⟩ := startFor_eq_error hforeign
    exact ⟨c, hc, hne, HighlightError.failed.inj heq⟩
  · intro content names fault hfault
    exact FailsOnly.traced (Highlighter.failsOnly_rank hrequests content _ _)
      (fun _ _ => failsOnly_ok _) _ hfault
  · intro depth g ignoreIllegals stack content request hrequest fault
    exact h.containsFailures depth request (Emission.threaded_empty.fitsRequests hrequest) _
  · intro name content options result hresult
    obtain ⟨entry, hfound, hresult⟩ := Highlighter.highlightWith_eq_ok hresult
    exact (givenBy_or_verbatim hresult).imp_left fun hgiven => ⟨entry.2.language, hfound, hgiven⟩
  · intro language content options result hresult
    exact givenBy_or_verbatim hresult
  · intro content names detection hdetection
    refine (Highlighter.detection_cases hdetection).imp_right fun hgiven result hresult => ?_
    obtain ⟨entry, hentry, hby, -⟩ := hgiven result hresult
    exact ⟨entry, hentry, hby⟩

/-- Whether a computation ends in a fault. -/
def fails {α : Type} : Except HighlightError α → Bool
  | .error (.failed _) => true
  | _ => false

theorem exists_of_fails {α : Type} {x : Except HighlightError α} (h : fails x = true) :
    ∃ fault, x = .error (.failed fault) := by
  unfold fails at h
  split at h
  · exact ⟨_, rfl⟩
  · cases h

/-- The host's quoted text is in a language whose grammar cannot be compiled. -/
def sampleBroken : Highlighter where
  registry := (Registry.empty.register sampleHost).register
    { name := "inner", grammar := ⟨#[{ lexemes := some "z", illegal := some "(" }], by decide⟩ }

/-- A name that leads nowhere, a continuation of the host for the inner language, a quoted text
whose language cannot be compiled, two quoted texts of which the second continues the first, and a
text that no language recognises. -/
theorem errors_stay_contained_sample :
    (∃ fault, (sampleHighlighter.highlightWith "nobody" "1" {}).value = .error (.failed fault) ∧
      (fault.Contained ∨ fault = .unknownLanguage "nobody")) ∧
    (∃ fault, (sampleHighlighter.highlightLanguage sampleInner "1"
        { continuation := some ⟨"host", .empty⟩ }).value = .error (.failed fault) ∧
      (fault.Contained ∨ fault = .foreignContinuation "inner" "host")) ∧
    (∃ fault, (sampleBroken.highlightWith "host" "a<1>" {}).value = .error (.failed fault) ∧
      fault.Contained) ∧
    (∃ result, (sampleHighlighter.highlightWith "host" "<1>a<2>" {}).value = .ok result ∧
      result.GivenBy "host") ∧
    (∃ detection, (sampleHighlighter.highlightAmong "?" []).value = .ok detection ∧
      detection = ⟨.verbatim "?", none⟩) := by
  obtain ⟨hwith, hlanguage, -, -, hwithOk, -, hamongOk, -⟩ :=
    errors_stay_contained sampleHighlighter
  obtain ⟨hbroken, -⟩ := errors_stay_contained sampleBroken
  refine ⟨?_, ?_, ?_, ?_, ?_⟩
  · obtain ⟨fault, hfault⟩ := exists_of_fails (show fails (sampleHighlighter.highlightWith "nobody"
      "1" {}).value = true by decide +kernel)
    refine ⟨fault, hfault, (hwith _ _ _ fault hfault).imp_right ?_⟩
    rintro (⟨-, hname⟩ | ⟨language, c, -, hc, -⟩)
    · exact hname
    · cases hc
  · obtain ⟨fault, hfault⟩ := exists_of_fails (show fails (sampleHighlighter.highlightLanguage
      sampleInner "1" { continuation := some ⟨"host", .empty⟩ }).value = true by decide +kernel)
    refine ⟨fault, hfault, (hlanguage _ _ _ fault hfault).imp_right ?_⟩
    rintro ⟨c, hc, -, hforeign⟩
    cases hc
    exact hforeign
  · obtain ⟨fault, hfault⟩ := exists_of_fails (show fails (sampleBroken.highlightWith "host"
      "a<1>" {}).value = true by decide +kernel)
    refine ⟨fault, hfault, (hbroken _ _ _ fault hfault).resolve_right ?_⟩
    rintro (⟨hnone, -⟩ | ⟨language, c, -, hc, -⟩)
    · have hsome : (sampleBroken.registry.get? "host").isSome = true := by decide +kernel
      rw [hnone] at hsome
      cases hsome
    · cases hc
  · obtain ⟨result, hresult, hgiven⟩ := exists_of_any (show (sampleHighlighter.highlightWith "host"
      "<1>a<2>" {}).value.toOption.any (·.language.isSome) = true by decide +kernel)
    refine ⟨result, hresult, ?_⟩
    rcases hwithOk _ _ _ _ hresult with ⟨language, hfound, hby⟩ | rfl
    · have hname : (sampleHighlighter.registry.get? "host").map (·.name) = some "host" := by
        decide +kernel
      rw [hfound, Option.map_some, Option.some.injEq] at hname
      rwa [hname] at hby
    · cases hgiven
  · obtain ⟨detection, hdetection, hnone⟩ := exists_of_any (show (sampleHighlighter.highlightAmong
      "?" []).value.toOption.any (·.best.language.isNone) = true by decide +kernel)
    refine ⟨detection, hdetection, (hamongOk _ _ _ hdetection).resolve_right fun hgiven => ?_⟩
    obtain ⟨entry, -, hby⟩ := hgiven detection.best (.inl rfl)
    rw [hby.language] at hnone
    cases hnone

end LexicalModes
