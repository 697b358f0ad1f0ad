import LexicalModes.Proofs.Containment

/-!
Ignoring what is illegal changes nothing on legal text. The only place where a scan asks whether
illegal text is ignored is the check of a lexeme that means nothing, so a step that a strict scan
takes is also taken by a lenient one (`Scan.Step.Taken.lenient`). A strict scan that comes to its
end is therefore the lenient one, and one that meets something illegal agrees with it up to there.
Requests have their own say on what is ignored, and never fail by what is illegal in them.
-/

namespace LexicalModes

open Pattern

namespace Scan

variable {g : CompiledGrammar} {text : Text}

@[simp] theorem checkTreated_lenient (s : Scan) (lexeme : String) (t : Treatment) :
    s.checkTreated g true lexeme t = .ok () := by
  cases t <;> rfl

theorem Step.Taken.lenient {step : Step} (h : step.Taken g false text) : step.Taken g true text :=
  ⟨h.found, h.treats, checkTreated_lenient _ _ _⟩

/-- A run that meets nothing illegal is the same run when illegal text is ignored. -/
theorem Run.lenient {first last : Scan} {steps : List Step} (h : Run g false text first steps last) :
    Run g true text first steps last := by
  induction h with
  | nil => exact .nil
  | snoc _ htaken ih => exact ih.snoc htaken.lenient

theorem step?_lenient {s : Scan} {next : Option Scan} (h : s.step? g false text = .ok next) :
    s.step? g true text = .ok next := by
  cases next with
  | some next =>
      obtain ⟨step, rfl, htaken, rfl⟩ := next_iff_exists_step.1 h
      exact next_iff_exists_step.2 ⟨step, rfl, htaken.lenient, rfl⟩
  | none =>
      rw [step?] at h ⊢
      split
      case h_1 => rfl
      case h_2 terminators hterminators =>
        rw [hterminators] at h
        obtain ⟨found, hfind, h⟩ := bind_eq_ok.1 h
        cases found with
        | none => exact bind_eq_ok.2 ⟨none, hfind, rfl⟩
        | some span =>
            obtain ⟨_, -, h⟩ := map_eq_ok.1 h
            cases h

theorem run_lenient {fuel : Nat} {s : Scan} (h : (run g false text fuel s).2 = none) :
    run g true text fuel s = run g false text fuel s := by
  induction fuel generalizing s with
  | zero => cases h
  | succ fuel ih =>
      rw [run] at h
      rw [run, run]
      split at h
      case h_1 next hnext =>
        rw [step?_lenient hnext]
        exact ih h
      case h_2 hdone => rw [step?_lenient hdone]
      case h_3 => cases h

theorem treatment_eq_passes {s : Scan} {lexeme : String} {offset : Nat}
    (h : s.treatment g lexeme offset = .ok .passes) :
    beginning? g lexeme (s.top g).contains = .ok none ∧
      ending? g lexeme s.stack.frames = .ok none := by
  rw [treatment] at h
  obtain ⟨begun, hbegin, h⟩ := bind_eq_ok.1 h
  cases begun with
  | some found =>
      have h := pure_eq_ok.1 h
      split at h <;> cases h
  | none =>
      obtain ⟨ended, hend, h⟩ := bind_eq_ok.1 h
      cases ended with
      | some depth =>
          have h := pure_eq_ok.1 h
          split at h <;> cases h
      | none => exact ⟨hbegin, hend⟩

/-- The lexeme means nothing where the step is taken, and is illegal there. -/
structure Step.Illegal (g : CompiledGrammar) (step : Step) : Prop where
  begins : beginning? g step.lexeme (step.state.top g).contains = .ok none
  ends : ending? g step.lexeme step.state.stack.frames = .ok none
  illegal : ∃ illegal found, (step.state.top g).illegal = some illegal ∧
    illegal.pattern.matchStart? step.lexeme = .ok (some found)

theorem liftMatch_ne_illegal {α : Type} (result : Except MatchError α) (mode content : String) :
    liftMatch result ≠ .error (.illegalLexeme mode content) := by
  cases result with
  | ok a => nofun
  | error e => cases e <;> nofun

theorem checkLegal_eq_illegal {ignoreIllegals : Bool} {s : Scan} {lexeme mode content : String}
    (h : s.checkLegal g ignoreIllegals lexeme = .error (.illegalLexeme mode content)) :
    ∃ illegal found, (s.top g).illegal = some illegal ∧
      illegal.pattern.matchStart? lexeme = .ok (some found) := by
  rw [checkLegal] at h
  split at h
  · cases h
  · split at h
    case h_1 => cases h
    case h_2 illegal hillegal =>
      rcases bind_eq_error.1 h with h | ⟨found, hfound, h⟩
      · exact absurd h (liftMatch_ne_illegal _ _ _)
      · cases found with
        | none => cases h
        | some found => exact ⟨illegal, found, hillegal, liftMatch_eq_ok.1 hfound⟩

/-- A strict scan that meets something illegal does so at a step that a lenient one takes. -/
theorem exists_step_of_illegal {s : Scan} {mode content : String}
    (h : s.step? g false text = .error (.illegalLexeme mode content)) :
    ∃ step : Step, step.state = s ∧ step.Taken g true text ∧ step.Illegal g := by
  rw [step?] at h
  split at h
  case h_1 => cases h
  case h_2 terminators hterminators =>
    rcases bind_eq_error.1 h with h | ⟨found, hfind, h⟩
    · exact absurd h (liftMatch_ne_illegal _ _ _)
    rw [liftMatch_eq_ok] at hfind
    cases found with
    | none => cases h
    | some span =>
        rcases bind_eq_error.1 h with h | ⟨next, -, h⟩
        swap
        · cases h
        rw [dispatch_eq] at h
        rcases bind_eq_error.1 h with h | ⟨t, ht, h⟩
        · exact absurd h (liftMatch_ne_illegal _ _ _)
        rw [liftMatch_eq_ok] at ht
        rcases bind_eq_error.1 h with h | ⟨_, -, h⟩
        swap
        · cases h
        cases t with
        | passes =>
            obtain ⟨hbegin, hend⟩ := treatment_eq_passes ht
            refine ⟨⟨s, text.slice span.start span.stop, span.start, .passes⟩, rfl, ?_, ?_⟩
            · exact ⟨⟨terminators, span, hterminators, hfind, rfl, rfl⟩, ht, rfl⟩
            · exact ⟨hbegin, hend, checkLegal_eq_illegal h⟩
        | _ => cases h

end Scan

/-! ### Calls -/

/-- A strict scan that comes to its end is the lenient one. -/
theorem scan_lenient {g : CompiledGrammar} {limit : StepLimit} {stack last : Stack}
    {content : String} (h : (scan g limit false stack content).outcome = .ok last) :
    scan g limit true stack content = scan g limit false stack content := by
  have hnone : (Scan.run g false (Text.ofString content)
      (limit g (Text.ofString content) stack) (Scan.initial g stack)).2 = none := by
    rcases hrun : Scan.run g false (Text.ofString content)
      (limit g (Text.ofString content) stack) (Scan.initial g stack) with ⟨s, fault⟩
    rw [Scan.initial] at hrun
    cases fault with
    | none => rfl
    | some e =>
        simp only [scan, hrun] at h
        cases h
  have hrun := Scan.run_lenient hnone
  rw [Scan.initial] at hrun
  simp only [scan, hrun]

theorem highlightCompiled_of_ok {g : CompiledGrammar} {embedding : Embedding} {name : String}
    {used : List String} {stack : Stack} {content : String} {options : Options}
    {result : Highlighted} (hstart : options.startFor name = .ok stack)
    (hresult : (highlightByGrammar g embedding name options.ignoreIllegals stack content).value =
      .ok result) :
    (highlightCompiled embedding name (.ok g) used content options).value = .ok result := by
  rw [highlightCompiled]
  refine Traced.bind_value_eq_ok.2 ⟨(), rfl, Traced.bind_value_eq_ok.2 ⟨stack, hstart, ?_⟩⟩
  rw [Traced.orVerbatim, hresult]
  exact hresult

theorem highlightByGrammar_lenient {g : CompiledGrammar} {embedding : Embedding} {name : String}
    {stack : Stack} {content : String} {result : Highlighted}
    (h : (highlightByGrammar g embedding name false stack content).value = .ok result) :
    (highlightByGrammar g embedding name true stack content).value = .ok result := by
  obtain ⟨e, last, -, hlast, -⟩ := highlightByGrammar_eq_ok h
  rw [← h, highlightByGrammar, highlightByGrammar, scan_lenient hlast]

/-- A strict scan that meets something illegal, together with the lenient one. -/
theorem exists_illegal_step {g : CompiledGrammar} {limit : StepLimit} {stack : Stack}
    {content mode lexeme : String}
    (h : (scan g limit false stack content).outcome = .error (.illegalLexeme mode lexeme)) :
    ∃ steps step, Scan.Run g false (Text.ofString content) (Scan.initial g stack) steps step.state ∧
      Scan.Run g true (Text.ofString content) (Scan.initial g stack) (steps ++ [step])
        (step.result g (Text.ofString content)) ∧
      step.Illegal g ∧ (scan g limit false stack content).events = step.state.events.reverse := by
  obtain ⟨steps, s, hrun, ⟨-, hscan⟩ | ⟨e, hfault, hscan⟩⟩ :=
    exists_run_of_scan g limit false stack content
  · rw [hscan] at h
    cases h
  · rw [hscan] at h ⊢
    cases h
    rcases hfault with hfault | ⟨fault, hsame, hfault⟩
    · cases hfault
    cases hsame
    obtain ⟨step, rfl, htaken, hillegal⟩ := Scan.exists_step_of_illegal hfault
    exact ⟨steps, step, hrun, hrun.lenient.snoc htaken, hillegal, rfl⟩

namespace Highlighter

variable {h : Highlighter} {depth : Nat}

theorem not_contained_illegalLexeme {mode lexeme : String} :
    ¬(HighlightError.illegalLexeme mode lexeme).PassedOn := nofun

theorem scan_illegal_of_highlightByGrammar {g : CompiledGrammar} {name : String}
    {ignoreIllegals : Bool} {stack : Stack} {content mode lexeme : String}
    (hillegal : (highlightByGrammar g (h.embedding depth) name ignoreIllegals stack content).value =
      .error (.illegalLexeme mode lexeme)) :
    (∃ e, (Emission.addAll g (h.embedding depth) {}
      (scan g h.stepLimit ignoreIllegals stack content).events).value = .ok e) ∧
    (scan g h.stepLimit ignoreIllegals stack content).outcome =
      .error (.illegalLexeme mode lexeme) := by
  rw [highlightByGrammar, stepLimit_embedding, Traced.value_bind] at hillegal
  rcases bind_eq_error.1 hillegal with hrequest | ⟨e, he, hillegal⟩
  · -- No request fails by what is illegal in its chunk.
    have hcontained := Emission.failsOnly_addAll contained_ofMatchError
      (fun request hmem => h.containsFailures depth request
        (Emission.threaded_empty.fitsRequests hmem))
      _ hrequest
    exact absurd hcontained not_contained_illegalLexeme
  · rw [Traced.value_bind] at hillegal
    rcases bind_eq_error.1 hillegal with hscan | ⟨last, -, hillegal⟩
    · exact ⟨⟨e, he⟩, hscan⟩
    · cases hillegal

/-- When illegal text is ignored, no text is left as it is. -/
theorem givenBy_of_lenient {name content : String} {used : List String}
    {grammar : Except CompileError CompiledGrammar} {options : Options} {result : Highlighted}
    (hignore : options.ignoreIllegals = true)
    (hresult : (highlightCompiled (h.embedding depth) name grammar used content options).value =
      .ok result) : result.GivenBy name := by
  obtain ⟨g, stack, -, -, hresult | ⟨⟨mode, lexeme, hillegal⟩, -⟩⟩ :=
    highlightCompiled_eq_ok hresult
  · exact givenBy_of_highlightByGrammar hresult
  · have hfails := failsOnly_highlightByGrammar (h.containsFailures depth) g name
      options.ignoreIllegals stack content _ hillegal
    rcases hfails with hcontained | ⟨hstrict, -⟩
    · exact absurd hcontained not_contained_illegalLexeme
    · rw [hignore] at hstrict
      cases hstrict

end Highlighter

/-- **Ignoring what is illegal changes nothing on legal text.** A result that a strict call gives by
the language is that of the lenient call. Where a strict call leaves the text as it is, the two go
through the same steps up to one at which the lexeme neither begins nor ends a mode and is illegal.
A lenient call never leaves the text as it is. -/
theorem lenient_eq_strict (h : Highlighter) (language : Language) (content : String)
    (continuation : Option Continuation) :
    (∀ result, (h.highlightLanguage language content
        { ignoreIllegals := false, continuation := continuation }).value = .ok result →
      (result.language.isSome = true →
        (h.highlightLanguage language content
          { ignoreIllegals := true, continuation := continuation }).value = .ok result) ∧
      (result.language = none →
        ∃ g stack steps step e, language.compile = .ok g ∧
          Options.startFor { continuation := continuation } language.name = .ok stack ∧
          Scan.Run g false (Text.ofString content) (Scan.initial g stack) steps step.state ∧
          Scan.Run g true (Text.ofString content) (Scan.initial g stack) (steps ++ [step])
            (step.result g (Text.ofString content)) ∧
          (Emission.addAll g (h.embedding h.embeddingLimit) {} step.state.events.reverse).value =
            .ok e ∧
          step.Illegal g)) ∧
    (∀ result, (h.highlightLanguage language content
        { ignoreIllegals := true, continuation := continuation }).value = .ok result →
      result.GivenBy language.name) ∧
    (∀ name result, (h.highlightWith name content
        { ignoreIllegals := true, continuation := continuation }).value = .ok result →
      result.language.isSome = true) := by
  refine ⟨fun result hresult => ?_, fun result => Highlighter.givenBy_of_lenient rfl, ?_⟩
  · obtain ⟨g, stack, hcompile, hstart, hresult⟩ := highlightCompiled_eq_ok hresult
    rcases hresult with hresult | ⟨⟨mode, lexeme, hillegal⟩, rfl⟩
    · refine ⟨fun _ => ?_, fun hnone => ?_⟩
      · rw [Highlighter.highlightLanguage, hcompile]
        exact highlightCompiled_of_ok hstart (highlightByGrammar_lenient hresult)
      · rw [(givenBy_of_highlightByGrammar hresult).language] at hnone
        cases hnone
    · refine ⟨fun hsome => (by cases hsome), fun _ => ?_⟩
      obtain ⟨⟨e, he⟩, hscan⟩ := Highlighter.scan_illegal_of_highlightByGrammar hillegal
      obtain ⟨steps, step, hstrict, hlenient, hstep, hevents⟩ := exists_illegal_step hscan
      rw [hevents] at he
      exact ⟨g, stack, steps, step, e, hcompile, hstart, hstrict, hlenient, he, hstep⟩
  · intro name result hresult
    obtain ⟨entry, -, hresult⟩ := Highlighter.highlightWith_eq_ok hresult
    rw [(Highlighter.givenBy_of_lenient rfl hresult).language]
    rfl

/-- A language with quoted text of another language, and something illegal outside of it. -/
def sampleStrict : Language where
  name := "strict"
  grammar := ⟨#[{ contains := [.mode 1], lexemes := some "z", illegal := some "!!" },
    { className := some "quoted", beginPattern := some "<", endPattern := some ">"
      lexemes := some "z", subLanguage := some (.fixed "inner") }], by decide⟩

/-- What is illegal outside of the quoted text is legal in it. -/
theorem lenient_eq_strict_sample :
    (∃ result, (sampleHighlighter.highlightLanguage sampleStrict "a<!!1>" {}).value = .ok result ∧
      result.language.isSome = true ∧
      (sampleHighlighter.highlightLanguage sampleStrict "a<!!1>"
        { ignoreIllegals := true }).value = .ok result) ∧
    (∃ result, (sampleHighlighter.highlightLanguage sampleStrict "<1>!!a" {}).value = .ok result ∧
      result.language = none ∧
      ∃ g steps step, sampleStrict.compile = .ok g ∧
        Scan.Run g false (Text.ofString "<1>!!a") (Scan.initial g .empty) steps step.state ∧
        Scan.Run g true (Text.ofString "<1>!!a") (Scan.initial g .empty) (steps ++ [step])
          (step.result g (Text.ofString "<1>!!a")) ∧
        step.Illegal g) ∧
    (∃ result, (sampleHighlighter.highlightLanguage sampleStrict "<1>!!a"
        { ignoreIllegals := true }).value = .ok result ∧ result.GivenBy "strict") := by
  refine ⟨?_, ?_, ?_⟩
  · obtain ⟨result, hresult, hsome⟩ := exists_of_any (show (sampleHighlighter.highlightLanguage
      sampleStrict "a<!!1>" {}).value.toOption.any (·.language.isSome) = true by decide +kernel)
    obtain ⟨hstrict, -⟩ := lenient_eq_strict sampleHighlighter sampleStrict "a<!!1>" none
    exact ⟨result, hresult, hsome, (hstrict result hresult).1 hsome⟩
  · obtain ⟨result, hresult, hnone⟩ := exists_of_any (show (sampleHighlighter.highlightLanguage
      sampleStrict "<1>!!a" {}).value.toOption.any (·.language.isNone) = true by decide +kernel)
    rw [Option.isNone_iff_eq_none] at hnone
    obtain ⟨hstrict, -⟩ := lenient_eq_strict sampleHighlighter sampleStrict "<1>!!a" none
    obtain ⟨g, stack, steps, step, e, hcompile, hstart, hrun, hlenient, -, hillegal⟩ :=
      (hstrict result hresult).2 hnone
    cases hstart
    exact ⟨result, hresult, hnone, g, steps, step, hcompile, hrun, hlenient, hillegal⟩
  · obtain ⟨result, hresult⟩ := exists_of_isOk (show (sampleHighlighter.highlightLanguage
      sampleStrict "<1>!!a" { ignoreIllegals := true }).value.isOk = true by decide +kernel)
    obtain ⟨-, hlenient, -⟩ := lenient_eq_strict sampleHighlighter sampleStrict "<1>!!a" none
    exact ⟨result, hresult, hlenient result hresult⟩

end LexicalModes
