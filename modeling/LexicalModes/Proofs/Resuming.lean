import LexicalModes.Proofs.Frames
import LexicalModes.Proofs.Seams

/-!
Which continuations a call takes up. A continuation has the name of the language that left it, and
this name is all that a call compares with its own language. The frames are indices into the grammar
of the language that left them, so they are frames of the other grammar too, with the classes they
had (`FramesFit`), if the grammars have the same classes at the same indices. Of two languages that
share a name, one takes up what the other has left, whether or not the frames fit.
-/

namespace LexicalModes

open Pattern

/-- A run of a call on the language, by itself or embedded in others, leaves the continuation. -/
structure Language.Leaves (language : Language) (c : Continuation) : Prop where
  language_eq : c.language = language.name
  run : ∃ g stack ignoreIllegals content s, language.compile = .ok g ∧
    Scan.Reaches g ignoreIllegals (Text.ofString content) (Scan.initial g stack) s ∧
    c.stack = s.stack

/-- The continuation that a call returns is one that it leaves, whatever it was allowed of steps and
of depth. -/
theorem leaves_of_highlightCompiled {embedding : Embedding} {language : Language}
    {used : List String} {content : String} {options : Options} {result : Highlighted}
    (hresult : (highlightCompiled embedding language.name language.compile used content
      options).value = .ok result) {c : Continuation} (hc : result.continuation = some c) :
    language.Leaves c := by
  obtain ⟨g, stack, hcompile, hstart, -⟩ := highlightCompiled_eq_ok hresult
  constructor
  · rcases givenBy_or_verbatim hresult with hgiven | rfl
    · obtain ⟨last, hlast⟩ := hgiven.continuation
      cases hc.symm.trans hlast
      rfl
    · cases hc
  · rw [hcompile] at hresult
    obtain ⟨s, hreaches, heq⟩ := reaches_of_highlightCompiled hstart hresult hc
    exact ⟨g, stack, _, content, s, hcompile, hreaches, heq⟩

theorem Highlighter.Gives.leaves {h : Highlighter} {language : Language} {content : String}
    {options : Options} {result : Highlighted} (hresult : h.Gives language content options result)
    {c : Continuation} (hc : result.continuation = some c) : language.Leaves c :=
  leaves_of_highlightCompiled hresult.value hc

/-- Every frame is one of a mode of the second grammar, with the class it has in the first. -/
def FramesFit (g₁ g₂ : CompiledGrammar) (frames : List Frame) : Prop :=
  ∀ frame ∈ frames, frame.mode < g₂.size ∧
    (g₂.mode frame.mode).className = (g₁.mode frame.mode).className

variable {g₁ g₂ : CompiledGrammar}

/-- Frames that fit open the same regions. -/
theorem FramesFit.openRegions_eq {c : Continuation} (h : FramesFit g₁ g₂ c.stack.frames) :
    openRegions g₂ (some c) = openRegions g₁ (some c) := by
  rw [openRegions, openRegions, Scan.openClasses, Scan.openClasses]
  congr 1
  apply List.filterMap_congr
  intro frame hframe
  exact (h frame (List.mem_reverse.1 hframe)).2

/-- What a chain of calls leaves fits every grammar with the same classes at the same indices. -/
theorem CompiledGrammar.ResumesAt.framesFit (hlinked : g₁.Linked) {stack : Stack}
    (h : g₁.ResumesAt stack)
    (hagree : ∀ index < g₁.size, index < g₂.size ∧
      (g₂.mode index).className = (g₁.mode index).className) :
    FramesFit g₁ g₂ stack.frames := by
  have hrange : Scan.InRange g₁ stack.frames :=
    h.keeps (List.forall_mem_nil _) (Scan.InRange.step hlinked)
  intro frame hframe
  exact hagree frame.mode (hrange frame hframe)

section

variable {h : Highlighter} {language : Language} {g : CompiledGrammar} {content : String}
  {options : Options} {result : Highlighted} {c : Continuation}

theorem highlightLanguage_foreign (hcompile : language.compile = .ok g)
    (hc : options.continuation = some c) (hne : c.language ≠ language.name) :
    (h.highlightLanguage language content options).value =
      .error (.foreignContinuation language.name c.language) := by
  have hstart : options.startFor language.name =
      .error (.foreignContinuation language.name c.language) := by
    rw [Options.startFor, hc]
    exact if_neg hne
  rw [Highlighter.highlightLanguage, hcompile, highlightCompiled]
  simp only [Traced.value_bind, Traced.value_note, Traced.value_ofExcept, hstart]
  rfl

/-- A call fails for a foreign continuation only if the names differ. -/
theorem foreign_of_highlightLanguage {expected found : String}
    (hforeign : (h.highlightLanguage language content options).value =
      .error (.foreignContinuation expected found)) :
    ∃ c, options.continuation = some c ∧ c.language ≠ language.name ∧
      expected = language.name ∧ found = c.language := by
  rcases Highlighter.failsOnly_highlightCompiled (h.containsFailures h.embeddingLimit) _ _ _ _ _ _
    hforeign with hcontained | hstart
  · cases hcontained
  · obtain ⟨c, hc, hne, heq⟩ := startFor_eq_error hstart
    cases heq
    exact ⟨c, hc, hne, rfl, rfl⟩

/-- A call that gives a result has taken up the continuation, and begins the regions of its frames
again. -/
theorem reopens_of_highlightLanguage (hcompile : language.compile = .ok g)
    (hc : options.continuation = some c)
    (hresult : (h.highlightLanguage language content options).value = .ok result) :
    c.language = language.name ∧
      (result.language.isSome = true → reopeners g (some c) <+: result.tokens) := by
  obtain ⟨compiled, stack, hcompiled, hstart, hscan⟩ := highlightCompiled_eq_ok hresult
  cases hcompile.symm.trans hcompiled
  refine ⟨?_, fun hgiven => ?_⟩
  · by_contra hne
    rw [highlightLanguage_foreign hcompile hc hne] at hresult
    cases hresult
  · rcases hscan with hscan | ⟨-, rfl⟩
    · obtain ⟨inner, hspans⟩ :=
        exists_spans_of_highlightByGrammar (openRegions_of_startFor hstart) hscan
      rw [hc] at hspans
      rw [hspans.tokens_eq, List.append_assoc]
      exact List.prefix_append _ _
    · cases hgiven

end

/-- **Continuations are taken up by name.** A call on a language that compiles refuses the
continuation of another language exactly if their names differ; otherwise a result begins the
regions that the frames have in its own grammar. So a continuation is either refused or fits exactly
if it fits where the names are the same. What a chain of calls has left fits a grammar with the same
classes at the same indices. -/
theorem continuation_taken_up_by_name {first : Language} (hfirst : first.compile = .ok g₁)
    {c : Continuation} (hc : first.Leaves c) (second : Language) (h : Highlighter)
    (content : String) (ignoreIllegals : Bool) :
    (∀ cause, second.compile = .error cause →
      (h.highlightLanguage second content ⟨ignoreIllegals, some c⟩).value =
        .error (.malformedGrammar cause)) ∧
    ∀ g₂, second.compile = .ok g₂ →
      (∀ expected found, (h.highlightLanguage second content ⟨ignoreIllegals, some c⟩).value =
          .error (.foreignContinuation expected found) ↔
        first.name ≠ second.name ∧ expected = second.name ∧ found = first.name) ∧
      (∀ result, (h.highlightLanguage second content ⟨ignoreIllegals, some c⟩).value =
          .ok result →
        first.name = second.name ∧
          (result.language.isSome = true → reopeners g₂ (some c) <+: result.tokens)) ∧
      (((∃ expected found, (h.highlightLanguage second content ⟨ignoreIllegals, some c⟩).value =
            .error (.foreignContinuation expected found)) ∨ FramesFit g₁ g₂ c.stack.frames) ↔
        (first.name = second.name → FramesFit g₁ g₂ c.stack.frames)) ∧
      (FramesFit g₁ g₂ c.stack.frames → openRegions g₂ (some c) = openRegions g₁ (some c)) ∧
      (g₁.ResumesAt c.stack →
        (∀ index < g₁.size, index < g₂.size ∧
          (g₂.mode index).className = (g₁.mode index).className) →
        FramesFit g₁ g₂ c.stack.frames) := by
  have hname : c.language = first.name := hc.language_eq
  refine ⟨fun cause hcause => ?_, fun g₂ hsecond => ?_⟩
  · rw [Highlighter.highlightLanguage, hcause]
    rfl
  have hforeign : ∀ expected found,
      (h.highlightLanguage second content ⟨ignoreIllegals, some c⟩).value =
          .error (.foreignContinuation expected found) ↔
        first.name ≠ second.name ∧ expected = second.name ∧ found = first.name := by
    intro expected found
    constructor
    · intro hvalue
      obtain ⟨other, hother, hne, rfl, rfl⟩ := foreign_of_highlightLanguage hvalue
      cases hother
      rw [← hname]
      exact ⟨hne, rfl, rfl⟩
    · rintro ⟨hne, rfl, rfl⟩
      rw [← hname] at hne ⊢
      exact highlightLanguage_foreign hsecond rfl hne
  refine ⟨hforeign, ?_, ?_, FramesFit.openRegions_eq, ?_⟩
  · intro result hresult
    rw [← hname]
    exact reopens_of_highlightLanguage hsecond rfl hresult
  · constructor
    · rintro (⟨expected, found, hvalue⟩ | hfit) heq
      · exact absurd heq ((hforeign expected found).1 hvalue).1
      · exact hfit
    · intro hfit
      by_cases heq : first.name = second.name
      · exact .inr (hfit heq)
      · exact .inl ⟨_, _, (hforeign _ _).2 ⟨heq, rfl, rfl⟩⟩
  · exact fun hchain hagree => hchain.framesFit (Grammar.linked_of_compile hfirst) hagree

/-- A language with quoted text of the given class. -/
def sampleNamesake (className : String) : Language where
  name := "sample"
  grammar := ⟨#[{ contains := [.mode 1], lexemes := some "z" },
    { className := some className, beginPattern := some "<", endPattern := some ">"
      lexemes := some "z" }], Nat.zero_lt_succ 1⟩

/-- The language takes up its own continuation, and one of another name refuses it. -/
theorem continuation_taken_up_by_name_sample :
    ∃ g c, (sampleNamesake "a").compile = .ok g ∧ (sampleNamesake "a").Leaves c ∧
      (sampleHighlighter.highlightLanguage sampleInner "x" ⟨false, some c⟩).value =
        .error (.foreignContinuation "inner" "sample") ∧
      g.ResumesAt c.stack ∧ FramesFit g g c.stack.frames ∧
      ∃ result, (sampleHighlighter.highlightLanguage (sampleNamesake "a") "x"
          ⟨false, some c⟩).value = .ok result ∧
        reopeners g (some c) <+: result.tokens := by
  obtain ⟨g, hg⟩ := exists_of_isOk (show (sampleNamesake "a").compile.isOk = true by
    decide +kernel)
  obtain ⟨inner, hinner⟩ := exists_of_isOk (show sampleInner.compile.isOk = true by
    decide +kernel)
  obtain ⟨left, hleft, hcalls⟩ := exists_of_any (show (sampleHighlighter.highlightLanguage
    (sampleNamesake "a") "<" {}).value.toOption.any (fun left => left.continuation.any fun c =>
      (sampleHighlighter.highlightLanguage (sampleNamesake "a") "x"
        ⟨false, some c⟩).value.toOption.any fun result => result.language.isSome) = true by
    decide +kernel)
  obtain ⟨c, hc, hcall⟩ := (Option.any_eq_true _ _).1 hcalls
  obtain ⟨result, hresult, hgiven⟩ := exists_of_any hcall
  have hleaves : (sampleNamesake "a").Leaves c := Highlighter.Gives.leaves (.inl hleft) hc
  have hcall := hleft
  rw [Highlighter.highlightLanguage, hg] at hcall
  have hchain : g.ResumesAt c.stack := .call .root rfl hcall hc
  obtain ⟨-, hother⟩ := continuation_taken_up_by_name hg hleaves sampleInner sampleHighlighter
    "x" false
  obtain ⟨-, hsame⟩ := continuation_taken_up_by_name hg hleaves (sampleNamesake "a")
    sampleHighlighter "x" false
  obtain ⟨hforeign, -⟩ := hother inner hinner
  obtain ⟨-, htaken, -, -, hfits⟩ := hsame g hg
  refine ⟨g, c, hg, hleaves, (hforeign _ _).2 ⟨by decide, rfl, rfl⟩, hchain, ?_, result, hresult,
    (htaken result hresult).2 hgiven⟩
  exact hfits hchain fun _ hindex => ⟨hindex, rfl⟩

/-- A language of the same name takes up a continuation that does not fit, and begins a region of a
class that was never open. -/
theorem namesake_takes_up_continuation :
    ∃ g₁ g₂ c result, (sampleNamesake "a").compile = .ok g₁ ∧
      (sampleNamesake "b").compile = .ok g₂ ∧ (sampleNamesake "a").Leaves c ∧
      (sampleHighlighter.highlightLanguage (sampleNamesake "b") "x" ⟨false, some c⟩).value =
        .ok result ∧
      result.tokens = [.begins (.region "b"), .text "x", .ends (.region "b")] ∧
      ¬FramesFit g₁ g₂ c.stack.frames := by
  obtain ⟨g₁, hg₁, hclass₁⟩ := exists_of_any (show (sampleNamesake "a").compile.toOption.any
    (fun g => decide ((g.mode 1).className = some "a")) = true by decide +kernel)
  obtain ⟨g₂, hg₂, hclass₂⟩ := exists_of_any (show (sampleNamesake "b").compile.toOption.any
    (fun g => decide ((g.mode 1).className = some "b")) = true by decide +kernel)
  obtain ⟨left, hleft, hcalls⟩ := exists_of_any (show (sampleHighlighter.highlightLanguage
    (sampleNamesake "a") "<" {}).value.toOption.any (fun left => left.continuation.any fun c =>
      decide (1 ∈ c.stack.frames.map Frame.mode) &&
        (sampleHighlighter.highlightLanguage (sampleNamesake "b") "x"
          ⟨false, some c⟩).value.toOption.any fun result => decide (result.tokens =
            [.begins (.region "b"), .text "x", .ends (.region "b")])) = true by decide +kernel)
  obtain ⟨c, hc, hcall⟩ := (Option.any_eq_true _ _).1 hcalls
  obtain ⟨hframes, hcall⟩ := Bool.and_eq_true_iff.1 hcall
  obtain ⟨result, hresult, htokens⟩ := exists_of_any hcall
  refine ⟨g₁, g₂, c, result, hg₁, hg₂, Highlighter.Gives.leaves (.inl hleft) hc, hresult,
    of_decide_eq_true htokens, fun hfit => ?_⟩
  obtain ⟨frame, hframe, hmode⟩ := List.mem_map.1 (of_decide_eq_true hframes)
  obtain ⟨-, hclass⟩ := hfit frame hframe
  rw [hmode, of_decide_eq_true hclass₁, of_decide_eq_true hclass₂] at hclass
  exact absurd hclass (by decide)

end LexicalModes
