import LexicalModes.Proofs.Limits
import LexicalModes.Proofs.Leniency
import LexicalModes.Proofs.Seams

/-!
Chunks of a fixed embedded language continue each other, and nothing else does. Of all that a run
emits, only a chunk for the language of a name looks at what is kept under that name, and only such
a chunk changes it (`Emission.lookup_add`). However the chunks of other names, of detected languages
and of the host itself come between, the chunks of one name are therefore highlighted as if they
were given to calls one after another, the first of which starts afresh.
-/

namespace LexicalModes

open Pattern

/-- The text of a chunk that is handed to the language of this name, as the grammar writes it. -/
def chunkFor? (g : CompiledGrammar) (name : String) : Event → Option String
  | .chunk index content =>
    if (g.mode index).subLanguage = some (.fixed name) then some content else none
  | _ => none

/-- The texts that a run hands to the language of this name, in order. -/
def chunksFor (g : CompiledGrammar) (name : String) (events : List Event) : List String :=
  events.filterMap (chunkFor? g name)

theorem chunksFor_append (g : CompiledGrammar) (name : String) (earlier later : List Event) :
    chunksFor g name (earlier ++ later) = chunksFor g name earlier ++ chunksFor g name later :=
  List.filterMap_append

theorem chunkFor?_chunk {g : CompiledGrammar} {name content : String} {index : ModeIndex}
    (hsub : (g.mode index).subLanguage = some (.fixed name)) :
    chunkFor? g name (.chunk index content) = some content := by
  rw [chunkFor?, if_pos hsub]

theorem eq_chunk_of_chunkFor? {g : CompiledGrammar} {name content : String} {event : Event}
    (h : chunkFor? g name event = some content) :
    ∃ index, event = .chunk index content ∧ (g.mode index).subLanguage = some (.fixed name) := by
  cases event with
  | begins className => cases h
  | ends className => cases h
  | score weight => cases h
  | chunk index chunk =>
      rw [chunkFor?] at h
      split at h
      case isTrue hsub =>
        cases h
        exact ⟨index, rfl, hsub⟩
      case isFalse => cases h

namespace Highlighter

variable (h : Highlighter)

/-- The call under the name that takes up from the continuation, with what is illegal ignored, gives
the answer. -/
def Continues (name content : String) (start : Option Continuation) (answer : Highlighted) : Prop :=
  (h.highlightWith name content ⟨true, start⟩).value = .ok answer

variable {h} {name content : String} {start : Option Continuation}

theorem Continues.givenBy {answer : Highlighted} {language : Language}
    (hanswer : h.Continues name content start answer)
    (hname : h.registry.get? name = some language) : answer.GivenBy language.name := by
  obtain ⟨entry, hentry, hanswer⟩ := highlightWith_eq_ok hanswer
  rw [hname] at hentry
  cases hentry
  exact givenBy_of_lenient rfl hanswer

/-- **An answer to a chunk** is that of a call, however deep the chunk is embedded itself. -/
theorem continues_of_fixed {depth : Nat} (hdepth : depth ≤ h.embeddingLimit) {result : Highlighted}
    (hresult : ((h.embedding depth).fixed name content start).value = .ok (some result)) :
    h.Continues name content start result := by
  have hdeeper := (RelaxedBy.refl h).embedding (Nat.le_succ_of_le hdepth)
  have hresult := (hdeeper.fixed name content start).eq_ok hresult
  rw [Continues, highlightWith]
  simp only [embedding] at hresult
  split at hresult
  case h_1 => cases hresult
  case h_2 entry hentry =>
    obtain ⟨answer, hanswer, heq⟩ := Traced.bind_value_eq_ok.1 hresult
    cases heq
    exact hanswer

theorem fixed_ne_none {depth : Nat} {language : Language}
    (hname : h.registry.get? name = some language) :
    ((h.embedding depth).fixed name content start).value ≠ .ok none := by
  obtain ⟨entry, hentry, -⟩ := Option.map_eq_some_iff.1 hname
  intro hnone
  cases depth with
  | zero => cases hnone
  | succ depth =>
      simp only [embedding, hentry] at hnone
      obtain ⟨answer, -, heq⟩ := Traced.bind_value_eq_ok.1 hnone
      cases heq

theorem exists_of_auto {depth : Nat} (hdepth : depth ≤ h.embeddingLimit) {names : List String}
    {result : Highlighted}
    (hresult : ((h.embedding depth).auto names content).value = .ok result) :
    ∃ detection, (h.highlightAmong content names).value = .ok detection ∧
      detection.best = result := by
  have hdeeper := (RelaxedBy.refl h).embedding (Nat.le_succ_of_le hdepth)
  have hresult := (hdeeper.auto names content).eq_ok hresult
  obtain ⟨ranking, hranking, heq⟩ := Traced.bind_value_eq_ok.1 hresult
  exact ⟨_, Traced.bind_value_eq_ok.2 ⟨ranking, hranking, rfl⟩, Except.ok.inj heq⟩

end Highlighter

namespace Emission

/-! ### What is kept under a name -/

theorem lookup_keepThread (e : Emission) (name : String) (continuation : Option Continuation) :
    (e.keepThread name continuation).threads.lookup name = continuation := by
  cases continuation with
  | some c => exact List.lookup_cons_self
  | none =>
      apply List.lookup_eq_none_iff.2
      intro thread hthread
      have hne : (thread.1 != name) = true := (List.mem_filter.1 hthread).2
      rw [bne_iff_ne] at hne ⊢
      exact hne.symm

theorem lookup_keepThread_of_ne (e : Emission) {name other : String} (hne : name ≠ other)
    (continuation : Option Continuation) :
    (e.keepThread other continuation).threads.lookup name = e.threads.lookup name := by
  have hothers : ∀ threads : List (String × Continuation),
      (threads.filter (·.1 != other)).lookup name = threads.lookup name := by
    intro threads
    induction threads with
    | nil => rfl
    | cons thread rest ih =>
        by_cases hthread : thread.1 = other
        · have hmiss : (name == thread.1) = false := beq_false_of_ne (hthread ▸ hne)
          rw [List.filter_cons_of_neg (by simp [hthread]), List.lookup_cons, hmiss]
          exact ih
        · rw [List.filter_cons_of_pos (by simp [hthread]), List.lookup_cons, List.lookup_cons, ih]
  cases continuation with
  | none => exact hothers e.threads
  | some c =>
      have hmiss : (name == other) = false := beq_false_of_ne hne
      calc (e.keepThread other (some c)).threads.lookup name
          = (e.threads.filter (·.1 != other)).lookup name := by
            rw [keepThread, List.lookup_cons, hmiss]
        _ = e.threads.lookup name := hothers e.threads

variable {h : Highlighter} {depth : Nat} {g : CompiledGrammar} {name : String}

/-- **Any other event** leaves what is kept under a name as it is. -/
theorem lookup_add {embedding : Embedding} {e next : Emission} {event : Event}
    (hadd : (e.add g embedding event).value = .ok next) (hother : chunkFor? g name event = none) :
    next.threads.lookup name = e.threads.lookup name := by
  cases add_eq_ok hadd with
  | begins className => rfl
  | ends className => rfl
  | score weight => rfl
  | classified hsub hclassify => rfl
  | unregistered hsub hnone => rfl
  | @fixed index content other result hsub hresult =>
      have hne : name ≠ other := by
        rintro rfl
        rw [chunkFor?_chunk hsub] at hother
        cases hother
      rw [threads_addEmbedded, lookup_keepThread_of_ne e hne]
  | auto hsub hresult => rw [threads_addEmbedded]

/-- **A chunk for the language** of a name is highlighted from what is kept under the name, stands
between the boundaries of the language, and leaves under the name where it finished. -/
theorem exists_answer_of_add (hdepth : depth ≤ h.embeddingLimit) {language : Language}
    (hname : h.registry.get? name = some language) {e next : Emission} {index : ModeIndex}
    {content : String} (hsub : (g.mode index).subLanguage = some (.fixed name))
    (hadd : (e.add g (h.embedding depth) (.chunk index content)).value = .ok next) :
    ∃ answer, h.Continues name content (e.threads.lookup name) answer ∧
      next.threads.lookup name = answer.continuation ∧
      next.stream.toList = e.stream.toList ++ .begins (.language language.name) ::
        answer.tokens ++ [.ends (.language language.name)] := by
  cases add_eq_ok hadd with
  | classified hnone hclassify =>
      rw [hsub] at hnone
      cases hnone
  | unregistered hfixed hnone =>
      rw [hsub] at hfixed
      cases hfixed
      exact absurd hnone (Highlighter.fixed_ne_none hname)
  | @fixed _ _ other answer hfixed hresult =>
      rw [hsub] at hfixed
      cases hfixed
      have hanswer := Highlighter.continues_of_fixed hdepth hresult
      refine ⟨answer, hanswer, ?_, ?_⟩
      · rw [threads_addEmbedded, lookup_keepThread]
      · rw [stream_addEmbedded, (hanswer.givenBy hname).language, stream_keepThread]
        simp
  | auto hauto hresult =>
      rw [hsub] at hauto
      cases hauto

/-- **A run** hands the chunks for the language of a name to calls one after another. -/
theorem exists_answers_of_addAll (hdepth : depth ≤ h.embeddingLimit) {language : Language}
    (hname : h.registry.get? name = some language) {e last : Emission} {events : List Event}
    (hlast : (addAll g (h.embedding depth) e events).value = .ok last) :
    ∃ answers,
      Successive (h.Continues name) (e.threads.lookup name) (chunksFor g name events) answers ∧
        last.threads.lookup name = resumedAt (e.threads.lookup name) answers := by
  induction events generalizing e with
  | nil =>
      cases hlast
      exact ⟨[], .nil, rfl⟩
  | cons event rest ih =>
      obtain ⟨next, hnext, hrest⟩ := addAll_cons_eq_ok hlast
      obtain ⟨answers, hanswers, hkept⟩ := ih hrest
      rw [chunksFor]
      cases hchunk : chunkFor? g name event with
      | none =>
          rw [List.filterMap_cons_none hchunk]
          rw [lookup_add hnext hchunk] at hanswers hkept
          exact ⟨answers, hanswers, hkept⟩
      | some chunk =>
          obtain ⟨index, rfl, hsub⟩ := eq_chunk_of_chunkFor? hchunk
          obtain ⟨answer, hanswer, hcontinuation, -⟩ := exists_answer_of_add hdepth hname hsub hnext
          rw [List.filterMap_cons_some hchunk]
          rw [hcontinuation] at hanswers hkept
          exact ⟨answer :: answers, .cons hanswer hanswers, hkept⟩

/-- A chunk for the language of a name, in the middle of a run. -/
theorem exists_block_of_addAll (hdepth : depth ≤ h.embeddingLimit) {language : Language}
    (hname : h.registry.get? name = some language) {e last : Emission} {earlier later : List Event}
    {index : ModeIndex} {chunk : String} (hsub : (g.mode index).subLanguage = some (.fixed name))
    (hlast : (addAll g (h.embedding depth) e (earlier ++ .chunk index chunk :: later)).value =
      .ok last) :
    ∃ before front answer back after, (addAll g (h.embedding depth) e earlier).value = .ok before ∧
      Successive (h.Continues name) (e.threads.lookup name)
        (chunksFor g name (earlier ++ .chunk index chunk :: later)) (front ++ answer :: back) ∧
      (chunksFor g name earlier).length = front.length ∧
      last.stream.toList = before.stream.toList ++ .begins (.language language.name) ::
        answer.tokens ++ .ends (.language language.name) :: after := by
  obtain ⟨before, hbefore, hrest⟩ := addAll_append_eq_ok.1 hlast
  obtain ⟨next, hnext, hlater⟩ := addAll_cons_eq_ok hrest
  obtain ⟨front, hfront, hkept⟩ := exists_answers_of_addAll hdepth hname hbefore
  obtain ⟨answer, hanswer, hcontinuation, htokens⟩ := exists_answer_of_add hdepth hname hsub hnext
  obtain ⟨back, hback, -⟩ := exists_answers_of_addAll hdepth hname hlater
  rw [hkept] at hanswer
  rw [hcontinuation] at hback
  have hchunks : chunksFor g name (earlier ++ .chunk index chunk :: later) =
      chunksFor g name earlier ++ chunk :: chunksFor g name later := by
    rw [chunksFor_append]
    exact congrArg _ (List.filterMap_cons_some (chunkFor?_chunk hsub))
  -- The end of the language keeps all that was emitted up to there in its place.
  have hends : ∀ content, Token.ends (.language language.name) ≠ .text content := nofun
  have hsealed : Sealed next.stream.toList := by
    rw [htokens]
    exact sealed_snoc hends _
  obtain ⟨after, hafter⟩ := prefix_addAll hsealed List.prefix_rfl hlater
  refine ⟨before, front, answer, back, after, hbefore, ?_, hfront.length, ?_⟩
  · rw [hchunks]
    exact hfront.append (.cons hanswer hback)
  · rw [← hafter, htokens]
    simp

/-- A chunk in a detected language is highlighted on its own. -/
theorem exists_detection_of_add (hdepth : depth ≤ h.embeddingLimit) {e next : Emission}
    {index : ModeIndex} {content : String} {names : List String}
    (hsub : (g.mode index).subLanguage = some (.auto names))
    (hadd : (e.add g (h.embedding depth) (.chunk index content)).value = .ok next) :
    ∃ detection, (h.highlightAmong content names).value = .ok detection ∧
      next = e.addEmbedded (g.mode index) detection.best := by
  cases add_eq_ok hadd with
  | classified hnone hclassify =>
      rw [hsub] at hnone
      cases hnone
  | unregistered hfixed hnone =>
      rw [hsub] at hfixed
      cases hfixed
  | fixed hfixed hanswer =>
      rw [hsub] at hfixed
      cases hfixed
  | auto hauto hanswer =>
      rw [hsub] at hauto
      cases hauto
      obtain ⟨detection, hdetection, rfl⟩ := Highlighter.exists_of_auto hdepth hanswer
      exact ⟨detection, hdetection, rfl⟩

end Emission

/-- **Chunks are threaded by name.** In a run that comes to its end, the chunks handed to a
registered language under one name, in order, are highlighted by calls one after another, the first
from the start and each other one from where the one before finished, whatever comes between them.
Each call is given by the language, and its tokens stand where its chunk was read, between the
boundaries of the language. A chunk in a detected language is highlighted on its own, and what is
kept for the names stays as it is. -/
theorem chunks_threaded_by_name (h : Highlighter) {depth : Nat} (hdepth : depth ≤ h.embeddingLimit)
    {g : CompiledGrammar} {host content : String} {ignoreIllegals : Bool} {stack : Stack}
    {result : Highlighted} {events : List Event}
    (hresult : (highlightByGrammar g (h.embedding depth) host ignoreIllegals stack content).value =
      .ok result) (hevents : (scan g h.stepLimit ignoreIllegals stack content).events = events) :
    (∀ name language, h.registry.get? name = some language →
      ∃ answers, Successive (h.Continues name) none (chunksFor g name events) answers ∧
        (∀ answer ∈ answers, answer.GivenBy language.name) ∧
        ∀ earlier index chunk later, events = earlier ++ .chunk index chunk :: later →
          (g.mode index).subLanguage = some (.fixed name) →
          ∃ before answer after,
            (Emission.addAll g (h.embedding depth) {} earlier).value = .ok before ∧
            answers[(chunksFor g name earlier).length]? = some answer ∧
            result.tokens = before.stream.toList ++ .begins (.language language.name) ::
              answer.tokens ++ .ends (.language language.name) :: after) ∧
    (∀ earlier index chunk names later, events = earlier ++ .chunk index chunk :: later →
      (g.mode index).subLanguage = some (.auto names) →
      ∃ before after detection,
        (Emission.addAll g (h.embedding depth) {} earlier).value = .ok before ∧
        (before.add g (h.embedding depth) (.chunk index chunk)).value = .ok after ∧
        (h.highlightAmong chunk names).value = .ok detection ∧
        after = before.addEmbedded (g.mode index) detection.best ∧
        after.threads = before.threads) := by
  obtain ⟨last, finished, hlast, -, rfl⟩ := highlightByGrammar_eq_ok hresult
  rw [Highlighter.stepLimit_embedding, hevents] at hlast
  constructor
  · intro name language hname
    obtain ⟨answers, hanswers, -⟩ := Emission.exists_answers_of_addAll hdepth hname hlast
    refine ⟨answers, hanswers, fun answer hanswer => ?_, ?_⟩
    · obtain ⟨chunk, start, hcall⟩ := hanswers.exists_of_mem hanswer
      exact hcall.givenBy hname
    · rintro earlier index chunk later rfl hsub
      obtain ⟨before, front, answer, back, after, hbefore, hall, hlength, htokens⟩ :=
        Emission.exists_block_of_addAll hdepth hname hsub hlast
      -- Each call has one result, so the answers found from the chunk are the answers of the run.
      have heq : answers = front ++ answer :: back :=
        hanswers.unique (fun hfirst hsecond => Except.ok.inj (hfirst.symm.trans hsecond)) hall
      refine ⟨before, answer, after, hbefore, ?_, htokens⟩
      rw [heq, hlength, List.getElem?_append_right (Nat.le_refl _), Nat.sub_self]
      rfl
  · rintro earlier index chunk names later rfl hsub
    obtain ⟨before, hbefore, hrest⟩ := Emission.addAll_append_eq_ok.1 hlast
    obtain ⟨next, hnext, -⟩ := Emission.addAll_cons_eq_ok hrest
    obtain ⟨detection, hdetection, rfl⟩ := Emission.exists_detection_of_add hdepth hsub hnext
    exact ⟨before, _, detection, hbefore, hnext, hdetection, rfl,
      Emission.threads_addEmbedded _ _ _⟩

/-- A language with text in a fixed language and text in a detected one. -/
def sampleThreaded : Language where
  name := "threaded"
  grammar := ⟨#[{ contains := [.mode 1, .mode 2], lexemes := some "z" },
    { beginPattern := some "<", endPattern := some ">", lexemes := some "z"
      subLanguage := some (.fixed "inner"), flags := { excludeBegin := true, excludeEnd := true } },
    { beginPattern := some "--", endPattern := some "-", lexemes := some "z"
      subLanguage := some (.auto ["inner"])
      flags := { excludeBegin := true, excludeEnd := true } }], by decide⟩

/-- The number that the first chunk leaves open goes on in the second, whatever is detected
between them. -/
theorem chunks_threaded_by_name_sample :
    ∃ g result language first second, sampleThreaded.compile = .ok g ∧
      sampleHighlighter.registry.get? "inner" = some language ∧
      (highlightByGrammar g (sampleHighlighter.embedding 1) "threaded" false .empty
        "<1>--1-<2>").value = .ok result ∧
      sampleHighlighter.Continues "inner" "1" none first ∧
      sampleHighlighter.Continues "inner" "2" first.continuation second ∧
      first.GivenBy language.name ∧ second.GivenBy language.name := by
  obtain ⟨g, hg, hrun⟩ := exists_of_any (show sampleThreaded.compile.toOption.any (fun g =>
    (highlightByGrammar g (sampleHighlighter.embedding 1) "threaded" false .empty
        "<1>--1-<2>").value.isOk &&
      chunksFor g "inner"
        (scan g sampleHighlighter.stepLimit false .empty "<1>--1-<2>").events == ["1", "2"]) =
    true by decide +kernel)
  obtain ⟨hok, hchunks⟩ := Bool.and_eq_true_iff.1 hrun
  obtain ⟨result, hresult⟩ := exists_of_isOk hok
  obtain ⟨language, hname⟩ := Option.isSome_iff_exists.1 (show
    (sampleHighlighter.registry.get? "inner").isSome = true by decide +kernel)
  obtain ⟨answers, hanswers, hgiven, -⟩ := (chunks_threaded_by_name sampleHighlighter
    (show 1 ≤ sampleHighlighter.embeddingLimit by decide) hresult rfl).1 "inner" language hname
  rw [beq_iff_eq.1 hchunks] at hanswers
  cases hanswers with
  | @cons _ _ first _ _ hfirst hrest =>
      cases hrest with
      | @cons _ _ second _ _ hsecond hend =>
          cases hend
          exact ⟨g, result, language, first, second, hg, hname, hresult, hfirst, hsecond,
            hgiven first (by simp), hgiven second (by simp)⟩

end LexicalModes
